import Fieldwise.Json.Path
import Fieldwise.Proofs.Text.Numerals
import Fieldwise.Proofs.Text.Trimming

/-!
How paths into JSON documents are written: as steps, with a `$` or a bare member name before them or
nothing. Each part is data that holds what may be chosen in writing it, so that the text of a path
follows from the parts, and the parts follow from the text: no text is written in two ways.
-/

namespace Fieldwise.Json

/-- The names of members that stand without quotes are made of such characters. -/
def isNameChar (c : Char) : Bool :=
  c != '.' && c != '[' && c != ']' && !Text.isBlankChar c

/-- The name of a member without quotes. -/
@[ext] structure MemberName where
  letters : List Char
  nonempty : letters ≠ []
  plain : ∀ c ∈ letters, isNameChar c

/-- The name of a member between quotes of either kind. -/
@[ext] structure QuotedName where
  quote : Char
  letters : List Char
  isQuote : quote = '\x27' ∨ quote = '"'
  unquoted : quote ∉ letters

/-- An index with the white space around it. -/
@[ext] structure WrittenIndex where
  before : List Char
  plus : Bool
  digits : List Char
  after : List Char
  blankBefore : ∀ c ∈ before, Text.isBlankChar c
  nonempty : digits ≠ []
  decimal : ∀ c ∈ digits, c.isDigit
  small : Text.numeralValue digits < 2 ^ 64
  blankAfter : ∀ c ∈ after, Text.isBlankChar c

inductive WrittenStep
  | member (name : MemberName)
  | quoted (name : QuotedName)
  | index (i : WrittenIndex)

/-- What stands before the first step. A bare name does not begin with the mark of the root. -/
inductive WrittenStart
  | nothing
  | root
  | bare (name : MemberName) (notRoot : name.letters.head? ≠ some '$')

@[ext] structure WrittenPath where
  start : WrittenStart
  written : List WrittenStep

/-! ### What is written, and what is meant -/

def plusSign (plus : Bool) : List Char := if plus then ['+'] else []

namespace WrittenIndex

def numeral (i : WrittenIndex) : List Char := plusSign i.plus ++ i.digits

def chars (i : WrittenIndex) : List Char := i.before ++ i.numeral ++ i.after

def value (i : WrittenIndex) : Nat := Text.numeralValue i.digits

end WrittenIndex

namespace WrittenStep

def chars : WrittenStep → List Char
  | member n => '.' :: n.letters
  | quoted n => '[' :: n.quote :: (n.letters ++ [n.quote, ']'])
  | index i => '[' :: (i.chars ++ [']'])

def step : WrittenStep → Step
  | member n => .key (String.ofList n.letters)
  | quoted n => .key (String.ofList n.letters)
  | index i => .index i.value

end WrittenStep

def charsOf (written : List WrittenStep) : List Char := written.flatMap WrittenStep.chars

@[simp] theorem charsOf_cons (w : WrittenStep) (rest : List WrittenStep) :
    charsOf (w :: rest) = w.chars ++ charsOf rest := rfl

namespace WrittenStart

def chars : WrittenStart → List Char
  | nothing => []
  | root => ['$']
  | bare n _ => n.letters

/-- A bare name is the first step. -/
def steps : WrittenStart → List Step
  | bare n _ => [.key (String.ofList n.letters)]
  | _ => []

end WrittenStart

namespace WrittenPath

def chars (p : WrittenPath) : List Char := p.start.chars ++ charsOf p.written

def steps (p : WrittenPath) : List Step := p.start.steps ++ p.written.map WrittenStep.step

def path (p : WrittenPath) : Path := ⟨String.ofList p.chars, p.steps⟩

end WrittenPath

/-! ### Indexes -/

theorem isNameChar_of_not_blank {c : Char} (h : isNameChar c) : Text.isBlankChar c = false := by
  simp only [isNameChar, Bool.and_eq_true, Bool.not_eq_true'] at h
  exact h.2

theorem naturalOf?_eq_some {cs : List Char} {n : Nat} :
    Text.naturalOf? cs = some n ↔ ∃ plus digits, digits ≠ [] ∧ (∀ c ∈ digits, c.isDigit) ∧
      cs = plusSign plus ++ digits ∧ Text.numeralValue digits = n := by
  have hvalue (digits : List Char) :
      (if !digits.isEmpty && digits.all Char.isDigit then some (Text.numeralValue digits)
        else none) = some n ↔
      digits ≠ [] ∧ (∀ c ∈ digits, c.isDigit) ∧ Text.numeralValue digits = n := by
    simp [and_assoc]
  constructor
  · intro h
    simp only [Text.naturalOf?] at h
    split at h
    · next digits =>
      obtain ⟨hne, hdigits, hn⟩ := (hvalue digits).mp h
      exact ⟨true, digits, hne, hdigits, rfl, hn⟩
    · obtain ⟨hne, hdigits, hn⟩ := (hvalue cs).mp h
      exact ⟨false, cs, hne, hdigits, rfl, hn⟩
  · rintro ⟨plus, digits, hne, hdigits, rfl, hn⟩
    cases plus with
    | true => exact (hvalue digits).mpr ⟨hne, hdigits, hn⟩
    | false =>
      have hunsigned (rest : List Char) : digits ≠ '+' :: rest := by
        rintro rfl
        exact absurd (hdigits '+' List.mem_cons_self) (by decide)
      change Text.naturalOf? digits = some n
      rw [Text.naturalOf?]
      · exact (hvalue digits).mpr ⟨hne, hdigits, hn⟩
      · exact hunsigned

namespace WrittenIndex

variable {i i' : WrittenIndex}

theorem not_blank_of_mem_numeral {c : Char} (h : c ∈ i.numeral) : Text.isBlankChar c = false := by
  rcases List.mem_append.mp h with h | h
  · obtain rfl : c = '+' := by
      cases hplus : i.plus <;> simp_all [plusSign]
    decide
  · exact Text.isBlankChar_of_isDigit (i.decimal c h)

theorem naturalOf?_numeral (i : WrittenIndex) : Text.naturalOf? i.numeral = some i.value :=
  naturalOf?_eq_some.mpr ⟨i.plus, i.digits, i.nonempty, i.decimal, rfl, rfl⟩

theorem trimChars_chars (i : WrittenIndex) : Text.trimChars i.chars = i.numeral :=
  Text.Tight.trimChars_eq (.of_no_blank fun _ => not_blank_of_mem_numeral)
    ⟨i.before, i.after, i.blankBefore, i.blankAfter, rfl⟩

theorem naturalOf?_trimChars_eq_some {cs : List Char} {n : Nat} :
    (Text.naturalOf? (Text.trimChars cs)).filter (· < 2 ^ 64) = some n ↔
      ∃ i : WrittenIndex, i.chars = cs ∧ i.value = n := by
  rw [Option.filter_eq_some_iff]
  constructor
  · rintro ⟨hn, hsmall⟩
    obtain ⟨plus, digits, hne, hall, htrim, rfl⟩ := naturalOf?_eq_some.mp hn
    obtain ⟨before, after, hbefore, hafter, hcs⟩ := Text.standsIn_trimChars cs
    rw [htrim] at hcs
    exact ⟨⟨before, plus, digits, after, hbefore, hne, hall, of_decide_eq_true hsmall, hafter⟩,
      hcs.symm, rfl⟩
  · rintro ⟨i, rfl, rfl⟩
    rw [trimChars_chars, naturalOf?_numeral]
    exact ⟨rfl, decide_eq_true i.small⟩

theorem numeral_ne_nil (i : WrittenIndex) : i.numeral ≠ [] := by
  simp [numeral, i.nonempty]

theorem head_numeral (i : WrittenIndex) (rest : List Char) :
    ∀ c ∈ (i.numeral ++ rest).head?, Text.isBlankChar c = false := by
  intro c hc
  obtain ⟨d, ds, hnumeral⟩ := List.exists_cons_of_ne_nil i.numeral_ne_nil
  obtain rfl : d = c := by simpa [hnumeral] using hc
  exact not_blank_of_mem_numeral (hnumeral ▸ List.mem_cons_self)

theorem numeral_inj (h : i.numeral = i'.numeral) : i.plus = i'.plus ∧ i.digits = i'.digits := by
  have hsign (j : WrittenIndex) : ∀ c ∈ j.digits.head?, (c == '+') = false := fun c hc => by
    have hdigit := j.decimal c (List.mem_of_mem_head? hc)
    rw [beq_eq_false_iff_ne]
    rintro rfl
    exact absurd hdigit (by decide)
  have hrun (plus : Bool) : ∀ c ∈ plusSign plus, (c == '+') = true := by
    cases plus <;> simp [plusSign]
  obtain ⟨hplus, hdigits⟩ :=
    Text.run_append_inj (hrun i.plus) (hrun i'.plus) (hsign i) (hsign i') h
  refine ⟨?_, hdigits⟩
  cases hp : i.plus <;> cases hp' : i'.plus <;> simp_all [plusSign]

theorem chars_injective : Function.Injective chars := by
  intro i i' h
  have hnumeral : i.numeral = i'.numeral := by
    rw [← i.trimChars_chars, h, i'.trimChars_chars]
  obtain ⟨hplus, hdigits⟩ := numeral_inj hnumeral
  simp only [chars, List.append_assoc] at h
  obtain ⟨hbefore, hrest⟩ := Text.run_append_inj i.blankBefore i'.blankBefore
    (i.head_numeral i.after) (i'.head_numeral i'.after) h
  rw [hnumeral] at hrest
  exact WrittenIndex.ext hbefore hplus hdigits (List.append_cancel_left hrest)

theorem of_mem_chars {c : Char} (h : c ∈ i.chars) : Text.isBlankChar c ∨ c = '+' ∨ c.isDigit := by
  simp only [chars, numeral, List.mem_append] at h
  rcases h with (h | h | h) | h
  · exact .inl (i.blankBefore c h)
  · refine .inr (.inl ?_)
    cases hplus : i.plus <;> simp_all [plusSign]
  · exact .inr (.inr (i.decimal c h))
  · exact .inl (i.blankAfter c h)

theorem ne_close_of_mem_chars {c : Char} (h : c ∈ i.chars) : c ≠ ']' := by
  rintro rfl
  exact absurd (of_mem_chars h) (by decide)

theorem not_quote_of_mem_chars {c : Char} (h : c ∈ i.chars) : ¬ (c = '\x27' ∨ c = '"') := by
  rintro (rfl | rfl)
  · exact absurd (of_mem_chars h) (by decide)
  · exact absurd (of_mem_chars h) (by decide)

theorem exists_cons_chars (i : WrittenIndex) : ∃ c cs, i.chars = c :: cs :=
  List.exists_cons_of_ne_nil (by simp [chars, i.numeral_ne_nil])

end WrittenIndex

/-! ### One way to write a text -/

theorem head_charsOf (written : List WrittenStep) :
    ∀ c ∈ (charsOf written).head?, isNameChar c = false := by
  cases written with
  | nil => simp [charsOf]
  | cons w rest => cases w <;> simp [charsOf, WrittenStep.chars, isNameChar]

/-- One step, with more after it that does not go on with a name, is told by the text. -/
theorem WrittenStep.append_inj {w w' : WrittenStep} {rest rest' : List Char}
    (hrest : ∀ c ∈ rest.head?, isNameChar c = false)
    (hrest' : ∀ c ∈ rest'.head?, isNameChar c = false)
    (h : w.chars ++ rest = w'.chars ++ rest') : w = w' ∧ rest = rest' := by
  have hindex (n : QuotedName) (i : WrittenIndex) (rest rest' : List Char) :
      n.quote :: (n.letters ++ n.quote :: ']' :: rest) ≠ i.chars ++ ']' :: rest' := by
    obtain ⟨c, cs, hchars⟩ := i.exists_cons_chars
    intro heq
    rw [hchars, List.cons_append] at heq
    have hc : c ∈ i.chars := hchars ▸ List.mem_cons_self
    exact WrittenIndex.not_quote_of_mem_chars hc ((List.cons.inj heq).1 ▸ n.isQuote)
  cases w with
  | member n =>
    cases w' with
    | member n' =>
      obtain ⟨hletters, hrest⟩ :=
        Text.run_append_inj n.plain n'.plain hrest hrest' (List.cons.inj h).2
      exact ⟨congrArg member (MemberName.ext hletters), hrest⟩
    | quoted n' => exact absurd (List.cons.inj h).1 (by decide)
    | index i' => exact absurd (List.cons.inj h).1 (by decide)
  | quoted n =>
    cases w' with
    | member n' => exact absurd (List.cons.inj h).1 (by decide)
    | quoted n' =>
      simp only [chars, List.cons_append, List.append_assoc, List.nil_append, List.cons.injEq,
        true_and] at h
      obtain ⟨hquote, h⟩ := h
      have hrun (m : QuotedName) : ∀ c ∈ m.letters, (c != m.quote) = true := fun c hc => by
        simpa using ne_of_mem_of_not_mem hc m.unquoted
      obtain ⟨hletters, htail⟩ := Text.run_append_inj (hrun n) (hquote ▸ hrun n') (by simp)
        (by simp [hquote]) h
      exact ⟨congrArg quoted (QuotedName.ext hquote hletters), by simpa [hquote] using htail⟩
    | index i' => exact absurd h (by simpa [chars] using hindex n i' rest rest')
  | index i =>
    cases w' with
    | member n' => exact absurd (List.cons.inj h).1 (by decide)
    | quoted n' => exact absurd h.symm (by simpa [chars] using hindex n' i rest' rest)
    | index i' =>
      simp only [chars, List.cons_append, List.append_assoc, List.nil_append, List.cons.injEq,
        true_and] at h
      have hrun (j : WrittenIndex) : ∀ c ∈ j.chars, (c != ']') = true := fun c hc => by
        simpa using WrittenIndex.ne_close_of_mem_chars hc
      obtain ⟨hchars, htail⟩ := Text.run_append_inj (hrun i) (hrun i') (by simp) (by simp) h
      exact ⟨congrArg index (WrittenIndex.chars_injective hchars), (List.cons.inj htail).2⟩

theorem charsOf_injective : Function.Injective charsOf := by
  intro written written' h
  induction written generalizing written' with
  | nil =>
    cases written' with
    | nil => rfl
    | cons w' rest' => cases w' <;> simp [charsOf, WrittenStep.chars] at h
  | cons w rest ih =>
    cases written' with
    | nil => cases w <;> simp [charsOf, WrittenStep.chars] at h
    | cons w' rest' =>
      obtain ⟨rfl, hrest⟩ := WrittenStep.append_inj (head_charsOf rest) (head_charsOf rest') h
      rw [ih hrest]

namespace WrittenStart

theorem plain (s : WrittenStart) : ∀ c ∈ s.chars, isNameChar c := by
  cases s with
  | nothing => simp [chars]
  | root => simp [chars]; decide
  | bare n _ => exact n.plain

theorem chars_injective : Function.Injective chars := by
  intro s s' h
  cases s with
  | nothing =>
    cases s' with
    | nothing => rfl
    | root => cases h
    | bare n' _ => exact absurd h.symm n'.nonempty
  | root =>
    cases s' with
    | nothing => cases h
    | root => rfl
    | bare n' hroot => exact absurd (congrArg List.head? h).symm hroot
  | bare n hroot =>
    cases s' with
    | nothing => exact absurd h n.nonempty
    | root => exact absurd (congrArg List.head? h) hroot
    | bare n' _ =>
      obtain rfl : n = n' := MemberName.ext h
      rfl

end WrittenStart

namespace WrittenPath

theorem chars_injective : Function.Injective chars := by
  intro p p' h
  obtain ⟨hstart, hwritten⟩ := Text.run_append_inj p.start.plain p'.start.plain
    (head_charsOf p.written) (head_charsOf p'.written) h
  exact WrittenPath.ext (WrittenStart.chars_injective hstart) (charsOf_injective hwritten)

theorem tight_chars (p : WrittenPath) : Text.Tight p.chars := by
  have hnames {cs : List Char} (h : ∀ c ∈ cs, isNameChar c) : Text.Tight cs :=
    .of_no_blank fun c hc => isNameChar_of_not_blank (h c hc)
  have hbrackets (cs : List Char) : Text.Tight ('[' :: (cs ++ [']'])) := by
    refine ⟨?_, ?_⟩
    · rintro c ⟨⟩
      decide
    · rw [← List.cons_append, List.getLast?_concat]
      rintro c ⟨⟩
      decide
  have hstep (w : WrittenStep) : Text.Tight w.chars := by
    cases w with
    | member n =>
      have hdot : Text.Tight ['.'] := .of_no_blank (List.forall_mem_singleton.mpr rfl)
      exact hdot.append (hnames n.plain)
    | quoted n => simpa [WrittenStep.chars] using hbrackets (n.quote :: (n.letters ++ [n.quote]))
    | index i => exact hbrackets i.chars
  refine (hnames p.start.plain).append ?_
  induction p.written with
  | nil => exact ⟨by simp [charsOf], by simp [charsOf]⟩
  | cons w rest ih => exact (hstep w).append ih

end WrittenPath

end Fieldwise.Json
