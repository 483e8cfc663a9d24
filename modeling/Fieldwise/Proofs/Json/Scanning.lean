import Fieldwise.Json.Printer
import Fieldwise.Json.Token
import Fieldwise.Proofs.Text.Numerals
import Mathlib.Data.List.TakeWhile

/-!
The tokens of a JSON value, and that they are what is found in the text of the value. A scanner
between two tokens reads a value, whatever tokens it has found so far and whatever follows; only
a number must not be followed by a character that would go on with it.
-/

namespace Fieldwise.Json

/-- How a character of a text is written: control characters without a letter of their own are
written as units. -/
def TextPart.ofChar (c : Char) : TextPart :=
  if c.toNat < 0x20 ∧ c ∉ ['\n', '\r', '\t', '\x08', '\x0c'] then .unit c.toNat else .char c

def textParts (s : String) : List TextPart := s.toList.map .ofChar

/-- The text of a number, taken apart at the sign, the point and the mark of the exponent. -/
def Number.numeral (n : Number) : Numeral :=
  let unsigned := n.text.toList.dropWhile (· == '-')
  let tail := unsigned.dropWhile Char.isDigit
  let exponent := (tail.dropWhile (· != 'e')).drop 1
  { negative := n.text.toList.head? == some '-'
    whole := unsigned.takeWhile Char.isDigit
    fraction := (tail.drop 1).takeWhile Char.isDigit
    exponent :=
      if exponent.isEmpty then none
      else some (exponent.head? == some '-', exponent.filter Char.isDigit) }

mutual

def tokens : Json → List Token
  | null => [.null]
  | boolean b => [.boolean b]
  | number n => [.number n.numeral]
  | text s => [.text (textParts s)]
  | array items => .opening .array :: itemTokens items ++ [.closing .array]
  | object fields => .opening .object :: fieldTokens fields ++ [.closing .object]

def itemTokens : List Json → List Token
  | [] => []
  | [v] => v.tokens
  | v :: rest => v.tokens ++ .comma :: itemTokens rest

def fieldTokens : List (String × Json) → List Token
  | [] => []
  | [(name, v)] => .text (textParts name) :: .colon :: v.tokens
  | (name, v) :: rest =>
    .text (textParts name) :: .colon :: v.tokens ++ .comma :: fieldTokens rest

end

mutual

/-- All numbers in a value are integers. -/
def Integral : Json → Prop
  | number (.float _) => False
  | array items => AllIntegral items
  | object fields => AllFieldsIntegral fields
  | _ => True

def AllIntegral : List Json → Prop
  | [] => True
  | v :: rest => v.Integral ∧ AllIntegral rest

def AllFieldsIntegral : List (String × Json) → Prop
  | [] => True
  | (_, v) :: rest => v.Integral ∧ AllFieldsIntegral rest

end

@[simp] theorem allIntegral_iff {items : List Json} :
    AllIntegral items ↔ ∀ v ∈ items, v.Integral := by
  induction items with
  | nil => simp [AllIntegral]
  | cons v rest ih => simp [AllIntegral, ih]

@[simp] theorem allFieldsIntegral_iff {fields : List (String × Json)} :
    AllFieldsIntegral fields ↔ ∀ field ∈ fields, field.2.Integral := by
  induction fields with
  | nil => simp [AllFieldsIntegral]
  | cons field rest ih =>
    obtain ⟨name, v⟩ := field
    simp [AllFieldsIntegral, ih]

namespace Scanner

open Mode NumberStage

/-- The tokens of the rest of a text, after those found. -/
def scan (s : Scanner) (cs : List Char) : Option (List Token) := do
  (← cs.foldlM step s).finish?

theorem scan_cons (s : Scanner) (c : Char) (cs : List Char) :
    s.scan (c :: cs) = (s.step c).bind (·.scan cs) := by
  simp only [scan, List.foldlM_cons, Option.bind_eq_bind]
  cases s.step c <;> rfl

theorem scan_of_step {s t : Scanner} {c : Char} (h : s.step c = some t) (cs : List Char) :
    s.scan (c :: cs) = t.scan cs := by
  rw [scan_cons, h]
  rfl

/-- A number cannot go on with what follows. -/
def EndsNumber (rest : List Char) : Prop :=
  ∀ c ∈ rest.head?, c ≠ '.' ∧ c ≠ 'e' ∧ c ≠ 'E' ∧ c.isDigit = false

theorem endsNumber_comma (rest : List Char) : EndsNumber (',' :: rest) := by
  simp [EndsNumber]

theorem endsNumber_of_isSpace {rest : List Char} (h : ∀ c ∈ rest.head?, isSpace c) :
    EndsNumber rest := by
  intro c hc
  have hspace := h c hc
  refine ⟨?_, ?_, ?_, ?_⟩
  any_goals rintro rfl; exact absurd hspace (by decide)
  simp only [isSpace, Bool.or_eq_true, beq_iff_eq] at hspace
  rcases hspace with ((rfl | rfl) | rfl) | rfl <;> rfl

theorem endsNumber_newline (level : Nat) (rest : List Char) :
    EndsNumber (newline level ++ rest) :=
  endsNumber_of_isSpace (by simp [newline, isSpace])

/-- A number that is complete has ended where it cannot go on. -/
theorem scan_of_endsNumber (found : List Token) {stage : NumberStage} (n : Numeral)
    (hstage : stage = .zero ∨ stage = .whole) {rest : List Char} (hrest : EndsNumber rest) :
    scan ⟨found, .number stage n⟩ rest =
      scan ⟨.number (finishNumeral n) :: found, .between⟩ rest := by
  have hcomplete : stage.isComplete := by
    rcases hstage with rfl | rfl <;> rfl
  cases rest with
  | nil => simp [scan, finish?, hcomplete]
  | cons c rest =>
    obtain ⟨hpoint, hmark, hmark', hdigit⟩ := hrest c (by simp)
    have hstops : continueNumber? stage n c = none := by
      rcases hstage with rfl | rfl <;> simp [continueNumber?, hpoint, hmark, hmark', hdigit]
    rw [scan_cons, scan_cons]
    simp [step, hstops, hcomplete, emit]

theorem scan_digits (found : List Token) (n : Numeral) {digits : List Char}
    (hdigits : ∀ c ∈ digits, c.isDigit) (rest : List Char) :
    scan ⟨found, .number .whole n⟩ (digits ++ rest) =
      scan ⟨found, .number .whole { n with whole := digits.reverse ++ n.whole }⟩ rest := by
  induction digits generalizing n with
  | nil => rfl
  | cons d digits ih =>
    have hd : d.isDigit := hdigits d (by simp)
    have hgoes : continueNumber? .whole n d = some (.whole, { n with whole := d :: n.whole }) := by
      have hne : d ≠ '.' ∧ d ≠ 'e' ∧ d ≠ 'E' := by
        refine ⟨?_, ?_, ?_⟩ <;> (rintro rfl; revert hd; decide)
      simp [continueNumber?, hne, hd]
    have hstep : step ⟨found, .number .whole n⟩ d =
        some ⟨found, .number .whole { n with whole := d :: n.whole }⟩ := by
      simp [step, hgoes]
    rw [List.cons_append, scan_of_step hstep, ih _ fun c hc => hdigits c (by simp [hc])]
    simp

/-- The first digit of a number is zero only if it is the only one. -/
theorem scan_numeral (found : List Token) (negative : Bool) (m : Nat) {s : Scanner}
    (hs : ∀ c, c.isDigit → s.step c = some
      ⟨found, .number (if c = '0' then .zero else .whole) ⟨negative, [c], [], none⟩⟩)
    {rest : List Char} (hrest : EndsNumber rest) :
    s.scan (Text.numeral m ++ rest) =
      scan ⟨.number ⟨negative, Text.numeral m, [], none⟩ :: found, .between⟩ rest := by
  rcases Nat.eq_zero_or_pos m with rfl | hm
  · have hzero : Text.numeral 0 = ['0'] := Text.numeral_of_lt (by decide)
    rw [hzero, List.singleton_append, scan_of_step (hs '0' rfl),
      scan_of_endsNumber found _ (by simp) hrest]
    rfl
  · obtain ⟨d, ds, hds, hd⟩ := Text.numeral_of_pos hm
    have hdigits : ∀ c ∈ d :: ds, c.isDigit := fun c hc =>
      Text.isDigit_of_mem_numeral (hds ▸ hc)
    rw [hds, List.cons_append, scan_of_step (hs d (hdigits d (by simp))), if_neg hd,
      scan_digits found _ (fun c hc => hdigits c (by simp [hc])),
      scan_of_endsNumber found _ (by simp) hrest]
    simp [finishNumeral]

theorem numeral_integer (i : Int) :
    (Number.integer i).numeral = ⟨i < 0, Text.numeral i.natAbs, [], none⟩ := by
  have hall : ∀ c ∈ Text.numeral i.natAbs, c.isDigit := fun c => Text.isDigit_of_mem_numeral
  obtain ⟨d, ds, hds⟩ := List.exists_cons_of_ne_nil (Text.numeral_ne_nil i.natAbs)
  have hd : d ≠ '-' := by
    rintro rfl
    exact absurd (hall '-' (by simp [hds])) (by decide)
  have htake : (Text.numeral i.natAbs).takeWhile Char.isDigit = Text.numeral i.natAbs :=
    List.takeWhile_eq_self_iff.mpr hall
  have hdrop : (Text.numeral i.natAbs).dropWhile Char.isDigit = [] :=
    List.dropWhile_eq_nil_iff.mpr hall
  rw [hds] at htake hdrop
  by_cases hi : i < 0 <;>
    simp [Number.numeral, Number.text, Text.integerNumeral, hi, hds, hd, htake, hdrop]

theorem step_digit {s : Scanner} (hs : s.mode = .between) {c : Char} (hc : c.isDigit) :
    s.step c = some
      ⟨s.found, .number (if c = '0' then .zero else .whole) ⟨false, [c], [], none⟩⟩ := by
  have hne {x : Char} (hx : x.isDigit = false) : c ≠ x := by
    rintro rfl
    simp [hc] at hx
  have hspace : isSpace c = false := by
    simp [isSpace, hne (x := ' ') rfl, hne (x := '\t') rfl, hne (x := '\n') rfl,
      hne (x := '\r') rfl]
  simp only [step, hs, begin?, hspace, Bool.false_eq_true, if_false, hne (x := '[') rfl,
    hne (x := ']') rfl, hne (x := '\x7b') rfl, hne (x := '\x7d') rfl, hne (x := ':') rfl,
    hne (x := ',') rfl, hne (x := '"') rfl, hne (x := '-') rfl, hc, if_true]
  split <;> simp_all

theorem step_digit_after_sign (found : List Token) {c : Char} (hc : c.isDigit) :
    step ⟨found, .number .sign ⟨true, [], [], none⟩⟩ c = some
      ⟨found, .number (if c = '0' then .zero else .whole) ⟨true, [c], [], none⟩⟩ := by
  by_cases h : c = '0' <;> simp [step, continueNumber?, h, hc]

theorem scan_integer (found : List Token) (i : Int) {rest : List Char} (hrest : EndsNumber rest) :
    scan ⟨found, .between⟩ ((Number.integer i).text.toList ++ rest) =
      scan ⟨.number (Number.integer i).numeral :: found, .between⟩ rest := by
  rw [numeral_integer]
  by_cases hi : i < 0
  · have hsign : step ⟨found, .between⟩ '-' = some ⟨found, .number .sign ⟨true, [], [], none⟩⟩ := rfl
    simp only [Number.text, Text.integerNumeral, hi, if_true, String.toList_ofList,
      List.cons_append, scan_of_step hsign, decide_true]
    exact scan_numeral found true _ (fun c hc => step_digit_after_sign found hc) hrest
  · simp only [Number.text, Text.integerNumeral, hi, if_false, String.toList_ofList, decide_false]
    exact scan_numeral found false _ (fun c hc => step_digit rfl hc) hrest

/-! ### Texts -/

theorem hexValue?_hexDigit {n : Nat} (h : n < 16) : hexValue? (hexDigit n) = some n := by
  have hall : ∀ m < 16, hexValue? (hexDigit m) = some m := by decide
  exact hall n h

theorem scan_escapeChar (found : List Token) (parts : List TextPart) (c : Char)
    (rest : List Char) :
    scan ⟨found, .text parts .none⟩ (escapeChar c ++ rest) =
      scan ⟨found, .text (.ofChar c :: parts) .none⟩ rest := by
  have hshort {x : Char} {letter : Char} (hletter : letter ≠ 'u')
      (hx : shortEscape? letter = some x) (hpart : TextPart.ofChar x = .char x) :
      scan ⟨found, .text parts .none⟩ ('\\' :: letter :: rest) =
        scan ⟨found, .text (.ofChar x :: parts) .none⟩ rest := by
    rw [scan_of_step (t := ⟨found, .text parts .backslash⟩) rfl,
      scan_of_step (t := ⟨found, .text (.char x :: parts) .none⟩) (by simp [step, hletter, hx]),
      hpart]
  unfold escapeChar
  split
  case h_8 hquote hslash hn hr ht hb hf =>
    have hquote : c ≠ '"' := hquote
    have hslash : c ≠ '\\' := hslash
    by_cases hcontrol : c.toNat < 0x20
    · -- the two digits of the unit
      have hhigh : hexValue? (hexDigit (c.toNat / 16)) = some (c.toNat / 16) :=
        hexValue?_hexDigit (by omega)
      have hlow : hexValue? (hexDigit (c.toNat % 16)) = some (c.toNat % 16) :=
        hexValue?_hexDigit (by omega)
      have hpart : TextPart.ofChar c = .unit c.toNat := by
        simp_all [TextPart.ofChar]
      have hsum : 16 * (c.toNat / 16) + c.toNat % 16 = c.toNat := Nat.div_add_mod _ _
      simp only [hcontrol, if_true, List.cons_append, List.nil_append]
      rw [scan_of_step (t := ⟨found, .text parts .backslash⟩) rfl,
        scan_of_step (t := ⟨found, .text parts (.hex 3 0)⟩) rfl,
        scan_of_step (t := ⟨found, .text parts (.hex 2 0)⟩) rfl,
        scan_of_step (t := ⟨found, .text parts (.hex 1 0)⟩) rfl,
        scan_of_step (t := ⟨found, .text parts (.hex 0 (c.toNat / 16))⟩) (by simp [step, hhigh]),
        scan_of_step (t := ⟨found, .text (.unit c.toNat :: parts) .none⟩)
          (by simp [step, hlow, hsum]),
        hpart]
    · have hpart : TextPart.ofChar c = .char c := by simp [TextPart.ofChar, hcontrol]
      simp only [hcontrol, if_false, List.cons_append, List.nil_append]
      rw [scan_of_step (t := ⟨found, .text (.char c :: parts) .none⟩)
        (by simp [step, hquote, hslash, hcontrol]), hpart]
  all_goals exact hshort (by decide) rfl rfl

theorem scan_escaped (found : List Token) (parts : List TextPart) (cs rest : List Char) :
    scan ⟨found, .text parts .none⟩ (cs.flatMap escapeChar ++ rest) =
      scan ⟨found, .text ((cs.map .ofChar).reverse ++ parts) .none⟩ rest := by
  induction cs generalizing parts with
  | nil => rfl
  | cons c cs ih =>
    rw [List.flatMap_cons, List.append_assoc, scan_escapeChar, ih]
    simp

theorem scan_quoted (found : List Token) (s : String) (rest : List Char) :
    scan ⟨found, .between⟩ (quoted s ++ rest) =
      scan ⟨.text (textParts s) :: found, .between⟩ rest := by
  have hquote : step ⟨found, .text (textParts s).reverse .none⟩ '"' =
      some ⟨.text (textParts s) :: found, .between⟩ := by
    simp [step, emit]
  rw [quoted, List.append_assoc, List.cons_append,
    scan_of_step (t := ⟨found, .text [] .none⟩) rfl, scan_escaped, List.append_nil]
  exact scan_of_step hquote rest

/-! ### Space and whole values -/

theorem scan_spaces (found : List Token) {spaces : List Char} (hspaces : ∀ c ∈ spaces, isSpace c)
    (rest : List Char) :
    scan ⟨found, .between⟩ (spaces ++ rest) = scan ⟨found, .between⟩ rest := by
  induction spaces with
  | nil => rfl
  | cons c spaces ih =>
    have hstep : step ⟨found, .between⟩ c = some ⟨found, .between⟩ := by
      simp [step, begin?, hspaces c (by simp)]
    rw [List.cons_append, scan_of_step hstep, ih fun c hc => hspaces c (by simp [hc])]

theorem scan_newline (found : List Token) (level : Nat) (rest : List Char) :
    scan ⟨found, .between⟩ (newline level ++ rest) = scan ⟨found, .between⟩ rest := by
  refine scan_spaces found (fun c hc => ?_) rest
  rcases List.mem_cons.mp hc with rfl | hc
  · rfl
  · obtain rfl := List.eq_of_mem_replicate hc
    rfl

theorem scan_leaf (found : List Token) {v : Json} (hv : v.Integral)
    (hleaf : (∀ items, v ≠ .array items) ∧ ∀ fields, v ≠ .object fields) {rest : List Char}
    (hrest : EndsNumber rest) :
    scan ⟨found, .between⟩ (leafChars v ++ rest) =
      scan ⟨v.tokens.reverse ++ found, .between⟩ rest := by
  match v with
  | .null => rfl
  | .boolean true => rfl
  | .boolean false => rfl
  | .number (.integer i) => exact scan_integer found i hrest
  | .number (.float x) => exact hv.elim
  | .text s => exact scan_quoted found s rest
  | .array items => exact absurd rfl (hleaf.1 items)
  | .object fields => exact absurd rfl (hleaf.2 fields)

mutual

theorem scan_pretty (found : List Token) (level : Nat) {v : Json} (hv : v.Integral)
    {rest : List Char} (hrest : EndsNumber rest) :
    scan ⟨found, .between⟩ (prettyChars level v ++ rest) =
      scan ⟨v.tokens.reverse ++ found, .between⟩ rest := by
  match v with
  | .array [] => rfl
  | .object [] => rfl
  | .array (item :: items) =>
    have hitems := scan_prettyItems (.opening .array :: found) (level + 1) (item :: items)
      hv (endsNumber_newline level (']' :: rest))
    rw [prettyChars]
    · simp only [List.cons_append, List.append_assoc, List.nil_append]
      rw [scan_of_step (t := ⟨.opening .array :: found, .between⟩) rfl, hitems,
        scan_newline, scan_of_step (t := ⟨.closing .array :: _, .between⟩) rfl]
      simp [tokens]
    · simp
  | .object (field :: fields) =>
    have hfields := scan_prettyFields (.opening .object :: found) (level + 1)
      (field :: fields) hv (endsNumber_newline level ('\x7d' :: rest))
    rw [prettyChars]
    · simp only [List.cons_append, List.append_assoc, List.nil_append]
      rw [scan_of_step (t := ⟨.opening .object :: found, .between⟩) rfl, hfields,
        scan_newline, scan_of_step (t := ⟨.closing .object :: _, .between⟩) rfl]
      simp [tokens]
    · simp
  | .null => exact scan_leaf found hv (by simp) hrest
  | .boolean b => exact scan_leaf found hv (by simp) hrest
  | .number n => exact scan_leaf found hv (by simp) hrest
  | .text s => exact scan_leaf found hv (by simp) hrest

theorem scan_prettyItems (found : List Token) (level : Nat) (items : List Json)
    (hitems : AllIntegral items) {rest : List Char} (hrest : EndsNumber rest) :
    scan ⟨found, .between⟩ (prettyItems level items ++ rest) =
      scan ⟨(itemTokens items).reverse ++ found, .between⟩ rest := by
  match items with
  | [] => rfl
  | [v] =>
    rw [prettyItems, List.append_assoc, scan_newline]
    exact scan_pretty found level hitems.1 hrest
  | v :: w :: items =>
    -- The comma ends the first item even if that is a number.
    have hhead := scan_pretty found level hitems.1 (endsNumber_comma
      (prettyItems level (w :: items) ++ rest))
    have htail := scan_prettyItems (.comma :: (v.tokens.reverse ++ found)) level (w :: items) hitems.2
      hrest
    rw [prettyItems, List.append_assoc, List.append_assoc, scan_newline, List.cons_append, hhead,
      scan_of_step (t := ⟨.comma :: (v.tokens.reverse ++ found), .between⟩) rfl, htail]
    · simp [itemTokens]
    · simp

theorem scan_prettyFields (found : List Token) (level : Nat) (fields : List (String × Json))
    (hfields : AllFieldsIntegral fields) {rest : List Char} (hrest : EndsNumber rest) :
    scan ⟨found, .between⟩ (prettyFields level fields ++ rest) =
      scan ⟨(fieldTokens fields).reverse ++ found, .between⟩ rest := by
  have hmember (name : String) (v : Json) (rest : List Char) :
      scan ⟨found, .between⟩ (newline level ++ quoted name ++ ':' :: ' ' :: rest) =
        scan ⟨.colon :: .text (textParts name) :: found, .between⟩ rest := by
    rw [List.append_assoc, scan_newline, scan_quoted,
      scan_of_step (t := ⟨.colon :: .text (textParts name) :: found, .between⟩) rfl,
      scan_of_step (t := ⟨.colon :: .text (textParts name) :: found, .between⟩) rfl]
  match fields with
  | [] => rfl
  | [(name, v)] =>
    rw [prettyFields, List.append_assoc, List.cons_append, List.cons_append, hmember name v]
    have hvalue := scan_pretty (.colon :: .text (textParts name) :: found) level hfields.1 hrest
    rw [hvalue]
    simp [fieldTokens]
  | (name, v) :: field :: fields =>
    have hvalue := scan_pretty (.colon :: .text (textParts name) :: found) level hfields.1
      (endsNumber_comma (prettyFields level (field :: fields) ++ rest))
    have htail := scan_prettyFields
      (.comma :: (v.tokens.reverse ++ .colon :: .text (textParts name) :: found)) level
      (field :: fields) hfields.2 hrest
    rw [prettyFields, List.append_assoc, List.append_assoc, List.cons_append, List.cons_append,
      hmember name v, List.cons_append, hvalue,
      scan_of_step (t := ⟨.comma :: (v.tokens.reverse ++ _), .between⟩) rfl, htail]
    · simp [fieldTokens]
    · simp

end

end Scanner

theorem tokens?_pretty_append {v : Json} (hv : v.Integral) {spaces : List Char}
    (hspaces : ∀ c ∈ spaces, Scanner.isSpace c) :
    tokens? (v.pretty.toList ++ spaces) = some v.tokens := by
  have hends : Scanner.EndsNumber spaces :=
    Scanner.endsNumber_of_isSpace fun c hc => hspaces c (List.mem_of_mem_head? hc)
  have hscan := Scanner.scan_pretty [] 0 hv hends
  have hspace := Scanner.scan_spaces v.tokens.reverse hspaces []
  simp only [List.append_nil] at hscan hspace
  rw [pretty, String.toList_ofList]
  change Scanner.start.scan (prettyChars 0 v ++ spaces) = _
  rw [Scanner.start, hscan, hspace]
  simp [Scanner.scan, Scanner.finish?]

end Fieldwise.Json
