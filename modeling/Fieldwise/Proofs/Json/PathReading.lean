import Fieldwise.Proofs.Json.WrittenPath

/-!
What the reader of paths accepts. For each mode of the reader it is said which texts it still waits
for, in words of how paths are written, and which steps they make. One character moves the reader to
the mode that waits for the rest, or is refused if there is none; so what is accepted in the end is
what the first mode waits for: a path as it is written, with white space around it.
-/

namespace Fieldwise.Json

namespace PathReader

open Mode

variable {r : PathReader} {c : Char} {cs letters : List Char} {steps : List Step}

/-! ### What is waited for -/

/-- Steps, and nothing else. -/
def AwaitsSteps (cs : List Char) (steps : List Step) : Prop :=
  ∃ written, cs = charsOf written ∧ steps = written.map WrittenStep.step

/-- The end of a bracket and steps. -/
def AwaitsClose (step : Step) (cs : List Char) (steps : List Step) : Prop :=
  ∃ rest after, cs = ']' :: rest ∧ AwaitsSteps rest after ∧ steps = step :: after

/-- The rest of a run of characters that has begun, and what ends it. -/
def AwaitsRun (p : Char → Bool) (ends : List Char → List Char → List Step → Prop)
    (letters cs : List Char) (steps : List Step) : Prop :=
  ∃ more rest, (∀ c ∈ more, p c) ∧ cs = more ++ rest ∧ ends (letters.reverse ++ more) rest steps

/-- A name ends where steps follow. -/
def EndsName (name cs : List Char) (steps : List Step) : Prop :=
  name ≠ [] ∧ ∃ after, AwaitsSteps cs after ∧ steps = .key (String.ofList name) :: after

def AwaitsName : List Char → List Char → List Step → Prop := AwaitsRun isNameChar EndsName

/-- A name in quotes ends with the quote that it began with. -/
def EndsQuote (quote : Char) (name cs : List Char) (steps : List Step) : Prop :=
  ∃ rest, cs = quote :: rest ∧ AwaitsClose (.key (String.ofList name)) rest steps

def AwaitsQuote (quote : Char) : List Char → List Char → List Step → Prop :=
  AwaitsRun (· != quote) (EndsQuote quote)

/-- An index ends with the bracket. -/
def EndsIndex (written cs : List Char) (steps : List Step) : Prop :=
  ∃ i : WrittenIndex, i.chars = written ∧ AwaitsClose (.index i.value) cs steps

def AwaitsIndex : List Char → List Char → List Step → Prop := AwaitsRun (· != ']') EndsIndex

/-- A step after its opening bracket, and steps. -/
def AwaitsBracket (cs : List Char) (steps : List Step) : Prop :=
  (∃ quote rest, (quote = '\x27' ∨ quote = '"') ∧ cs = quote :: rest ∧
    AwaitsQuote quote [] rest steps) ∨ AwaitsIndex [] cs steps

def Mode.Awaits : Mode → List Char → List Step → Prop
  | start => fun cs steps => ∃ p : WrittenPath, cs = p.chars ∧ steps = p.steps
  | between => AwaitsSteps
  | name letters => AwaitsName letters
  | bracket => AwaitsBracket
  | quoted quote letters => AwaitsQuote quote letters
  | afterQuote key => AwaitsClose (.key key)
  | index digits => AwaitsIndex digits

/-- What the reader waits for makes these steps, together with those that it has found. -/
def Reads (r : PathReader) (cs : List Char) (steps : List Step) : Prop :=
  ∃ after, r.mode.Awaits cs after ∧ steps = r.found.reverse ++ after

/-! ### At the end of the text -/

theorem awaitsSteps_nil : AwaitsSteps [] steps ↔ steps = [] := by
  constructor
  · rintro ⟨written, hchars, rfl⟩
    obtain rfl : [] = written := charsOf_injective hchars
    rfl
  · rintro rfl
    exact ⟨[], rfl, rfl⟩

theorem not_awaitsClose_nil (step : Step) : ¬ AwaitsClose step [] steps := by
  rintro ⟨rest, after, hcs, -⟩
  cases hcs

theorem awaitsRun_nil {p : Char → Bool} {ends : List Char → List Char → List Step → Prop} :
    AwaitsRun p ends letters [] steps ↔ ends letters.reverse [] steps := by
  constructor
  · rintro ⟨more, rest, -, hnil, hends⟩
    obtain ⟨rfl, rfl⟩ := List.append_eq_nil_iff.mp hnil.symm
    simpa using hends
  · intro hends
    exact ⟨[], [], by simp, rfl, by simpa using hends⟩

theorem awaitsName_nil : AwaitsName letters [] steps ↔
    letters ≠ [] ∧ steps = [.key (String.ofList letters.reverse)] := by
  simp [AwaitsName, awaitsRun_nil, EndsName, awaitsSteps_nil]

theorem not_awaitsQuote_nil (quote : Char) : ¬ AwaitsQuote quote letters [] steps := by
  rw [AwaitsQuote, awaitsRun_nil]
  rintro ⟨rest, hcs, -⟩
  cases hcs

theorem not_awaitsIndex_nil : ¬ AwaitsIndex letters [] steps := by
  rw [AwaitsIndex, awaitsRun_nil]
  rintro ⟨i, -, hclose⟩
  exact not_awaitsClose_nil _ hclose

theorem not_awaitsBracket_nil : ¬ AwaitsBracket [] steps := by
  rintro (⟨quote, rest, -, hcs, -⟩ | hindex)
  · cases hcs
  · exact not_awaitsIndex_nil hindex

theorem awaitsStart_nil : start.Awaits [] steps ↔ steps = [] := by
  constructor
  · rintro ⟨p, hchars, rfl⟩
    obtain rfl : ⟨.nothing, []⟩ = p := WrittenPath.chars_injective hchars
    rfl
  · rintro rfl
    exact ⟨⟨.nothing, []⟩, rfl, rfl⟩

theorem reads_nil : r.Reads [] steps ↔ r.finish = .ok steps := by
  obtain ⟨found, mode⟩ := r
  unfold Reads finish
  cases mode with
  | start => simp [awaitsStart_nil, eq_comm]
  | between => simp [Mode.Awaits, awaitsSteps_nil, eq_comm]
  | name letters =>
    cases letters with
    | nil => simp [Mode.Awaits, awaitsName_nil, endName, bind, Except.bind]
    | cons c letters =>
      simp [Mode.Awaits, awaitsName_nil, endName, addStep, bind, Except.bind, pure, Except.pure,
        eq_comm]
  | bracket => simp [Mode.Awaits, not_awaitsBracket_nil]
  | quoted quote letters => simp [Mode.Awaits, not_awaitsQuote_nil]
  | afterQuote key => simp [Mode.Awaits, not_awaitsClose_nil]
  | index digits => simp [Mode.Awaits, not_awaitsIndex_nil]

/-! ### One character more -/

section

variable {p : Char → Bool} {ends : List Char → List Char → List Step → Prop}

theorem awaitsRun_cons_of_pos (hends : ∀ run steps, ¬ ends run (c :: cs) steps) (hc : p c) :
    AwaitsRun p ends letters (c :: cs) steps ↔ AwaitsRun p ends (c :: letters) cs steps := by
  constructor
  · rintro ⟨more, rest, hmore, hcs, hrest⟩
    cases more with
    | nil =>
      obtain rfl : c :: cs = rest := hcs
      exact absurd hrest (hends _ _)
    | cons d more =>
      obtain ⟨rfl, rfl⟩ := List.cons.inj hcs
      exact ⟨more, rest, (List.forall_mem_cons.mp hmore).2, rfl, by simpa using hrest⟩
  · rintro ⟨more, rest, hmore, rfl, hrest⟩
    exact ⟨c :: more, rest, List.forall_mem_cons.mpr ⟨hc, hmore⟩, rfl, by simpa using hrest⟩

theorem awaitsRun_cons_of_neg (hc : p c = false) :
    AwaitsRun p ends letters (c :: cs) steps ↔ ends letters.reverse (c :: cs) steps := by
  constructor
  · rintro ⟨more, rest, hmore, hcs, hrest⟩
    cases more with
    | nil =>
      obtain rfl : c :: cs = rest := hcs
      simpa using hrest
    | cons d more =>
      obtain ⟨rfl, -⟩ := List.cons.inj hcs
      exact absurd (hmore c List.mem_cons_self) (by simp [hc])
  · intro hrest
    exact ⟨[], c :: cs, by simp, rfl, by simpa using hrest⟩

end

theorem awaitsSteps_cons : AwaitsSteps (c :: cs) steps ↔
    c = '.' ∧ AwaitsName [] cs steps ∨ c = '[' ∧ AwaitsBracket cs steps := by
  constructor
  · rintro ⟨written, hchars, rfl⟩
    cases written with
    | nil => cases hchars
    | cons w rest =>
      have hrest : AwaitsSteps (charsOf rest) (rest.map WrittenStep.step) := ⟨rest, rfl, rfl⟩
      cases w with
      | member n =>
        obtain ⟨rfl, rfl⟩ := List.cons.inj hchars
        exact .inl ⟨rfl, n.letters, charsOf rest, n.plain, rfl, n.nonempty, _, hrest, rfl⟩
      | quoted n =>
        obtain ⟨rfl, rfl⟩ := List.cons.inj hchars
        have hletters : ∀ c ∈ n.letters, (c != n.quote) = true := fun c hc => by
          simpa using ne_of_mem_of_not_mem hc n.unquoted
        exact .inr ⟨rfl, .inl ⟨n.quote, n.letters ++ n.quote :: ']' :: charsOf rest, n.isQuote,
          by simp; rfl, n.letters, _, hletters, rfl, _, rfl, _, _, rfl, hrest, rfl⟩⟩
      | index i =>
        obtain ⟨rfl, rfl⟩ := List.cons.inj hchars
        have hchars : ∀ c ∈ i.chars, (c != ']') = true := fun c hc => by
          simpa using WrittenIndex.ne_close_of_mem_chars hc
        exact .inr ⟨rfl, .inr ⟨i.chars, ']' :: charsOf rest, hchars, by simp; rfl, i, rfl, _, _,
          rfl, hrest, rfl⟩⟩
  · rintro (⟨rfl, letters, rest, hplain, rfl, hne, _, ⟨written, rfl, rfl⟩, rfl⟩ |
      ⟨rfl, ⟨quote, tail, hquote, rfl, letters, _, hletters, rfl, _, rfl, _, _, rfl,
        ⟨written, rfl, rfl⟩, rfl⟩ |
      ⟨_, _, -, rfl, i, rfl, _, _, rfl, ⟨written, rfl, rfl⟩, rfl⟩⟩)
    · exact ⟨.member ⟨letters, hne, hplain⟩ :: written, rfl, rfl⟩
    · have hunquoted : quote ∉ letters := fun hmem => by simpa using hletters quote hmem
      exact ⟨.quoted ⟨quote, letters, hquote, hunquoted⟩ :: written, by simp [WrittenStep.chars],
        rfl⟩
    · exact ⟨.index i :: written, by simp [WrittenStep.chars], rfl⟩

theorem awaitsBracket_cons_quote (hc : c = '\x27' ∨ c = '"') :
    AwaitsBracket (c :: cs) steps ↔ AwaitsQuote c [] cs steps := by
  constructor
  · rintro (⟨quote, rest, -, hcs, hquote⟩ | ⟨more, rest, -, hcs, i, hi, -⟩)
    · obtain ⟨rfl, rfl⟩ := List.cons.inj hcs
      exact hquote
    · -- No index begins with a quote.
      obtain ⟨d, ds, hchars⟩ := i.exists_cons_chars
      obtain rfl : i.chars = more := hi
      rw [hchars] at hcs
      obtain ⟨rfl, -⟩ := List.cons.inj hcs
      have hmem : c ∈ i.chars := hchars ▸ List.mem_cons_self
      exact absurd hc (WrittenIndex.not_quote_of_mem_chars hmem)
  · intro hquote
    exact .inl ⟨c, cs, hc, rfl, hquote⟩

theorem awaitsBracket_cons_of_not_quote (hc : ¬ (c = '\x27' ∨ c = '"')) :
    AwaitsBracket (c :: cs) steps ↔ AwaitsIndex [] (c :: cs) steps := by
  constructor
  · rintro (⟨quote, rest, hquote, hcs, -⟩ | hindex)
    · obtain ⟨rfl, rfl⟩ := List.cons.inj hcs
      exact absurd hquote hc
    · exact hindex
  · exact .inr

theorem awaitsClose_cons {step : Step} : AwaitsClose step (c :: cs) steps ↔
    c = ']' ∧ ∃ after, AwaitsSteps cs after ∧ steps = step :: after := by
  constructor
  · rintro ⟨rest, after, hcs, hafter, rfl⟩
    obtain ⟨rfl, rfl⟩ := List.cons.inj hcs
    exact ⟨rfl, after, hafter, rfl⟩
  · rintro ⟨rfl, after, hafter, rfl⟩
    exact ⟨cs, after, rfl, hafter, rfl⟩

theorem awaitsQuote_cons_self : AwaitsQuote c letters (c :: cs) steps ↔
    AwaitsClose (.key (String.ofList letters.reverse)) cs steps := by
  rw [AwaitsQuote, awaitsRun_cons_of_neg (by simp)]
  constructor
  · rintro ⟨rest, hcs, hclose⟩
    obtain ⟨-, rfl⟩ := List.cons.inj hcs
    exact hclose
  · intro hclose
    exact ⟨cs, rfl, hclose⟩

theorem awaitsQuote_cons_of_ne {quote : Char} (hc : c ≠ quote) :
    AwaitsQuote quote letters (c :: cs) steps ↔ AwaitsQuote quote (c :: letters) cs steps := by
  refine awaitsRun_cons_of_pos ?_ (by simpa using hc)
  rintro run steps ⟨rest, hcs, -⟩
  exact hc (List.cons.inj hcs).1

theorem awaitsIndex_cons_close : AwaitsIndex letters (']' :: cs) steps ↔
    ∃ i : WrittenIndex, i.chars = letters.reverse ∧
      ∃ after, AwaitsSteps cs after ∧ steps = .index i.value :: after := by
  rw [AwaitsIndex, awaitsRun_cons_of_neg (by simp)]
  simp [EndsIndex, awaitsClose_cons]

theorem awaitsIndex_cons_of_ne (hc : c ≠ ']') :
    AwaitsIndex letters (c :: cs) steps ↔ AwaitsIndex (c :: letters) cs steps := by
  refine awaitsRun_cons_of_pos ?_ (by simpa using hc)
  rintro run steps ⟨i, -, hclose⟩
  exact hc (awaitsClose_cons.mp hclose).1

theorem begins_of_awaitsSteps (h : AwaitsSteps (c :: cs) steps) : c = '.' ∨ c = '[' :=
  (awaitsSteps_cons.mp h).imp And.left And.left

theorem awaitsName_cons_of_name (hc : isNameChar c) :
    AwaitsName letters (c :: cs) steps ↔ AwaitsName (c :: letters) cs steps := by
  refine awaitsRun_cons_of_pos ?_ hc
  rintro run steps ⟨-, after, hafter, -⟩
  rcases begins_of_awaitsSteps hafter with rfl | rfl
  · exact absurd hc (by decide)
  · exact absurd hc (by decide)

/-- A path goes on with steps after the mark of the root; otherwise it is steps, or a name and
steps. -/
theorem awaitsStart_cons : start.Awaits (c :: cs) steps ↔
    if c = '$' then AwaitsSteps cs steps
    else if c = '.' ∨ c = '[' then AwaitsSteps (c :: cs) steps
    else AwaitsName [] (c :: cs) steps := by
  constructor
  · rintro ⟨⟨s, written⟩, hchars, rfl⟩
    have hsteps : AwaitsSteps (charsOf written) (written.map WrittenStep.step) :=
      ⟨written, rfl, rfl⟩
    cases s with
    | nothing =>
      have hsteps : AwaitsSteps (c :: cs) (written.map WrittenStep.step) := ⟨written, hchars, rfl⟩
      have hbegins := begins_of_awaitsSteps hsteps
      have hroot : c ≠ '$' := by
        rintro rfl
        exact absurd hbegins (by decide)
      rw [if_neg hroot, if_pos hbegins]
      exact hsteps
    | root =>
      obtain ⟨rfl, rfl⟩ := List.cons.inj hchars
      exact hsteps
    | bare n hroot =>
      have hname : AwaitsName [] (c :: cs) (.key (String.ofList n.letters) ::
          written.map WrittenStep.step) :=
        ⟨n.letters, charsOf written, n.plain, hchars, n.nonempty, _, hsteps, rfl⟩
      obtain ⟨d, ds, hletters⟩ := List.exists_cons_of_ne_nil n.nonempty
      have hcons : c :: cs = n.letters ++ charsOf written := hchars
      rw [hletters] at hcons hroot
      obtain ⟨rfl, -⟩ := List.cons.inj hcons
      have hplain : isNameChar c := n.plain c (hletters ▸ List.mem_cons_self)
      have hbegins : ¬ (c = '.' ∨ c = '[') := by
        rintro (rfl | rfl)
        · exact absurd hplain (by decide)
        · exact absurd hplain (by decide)
      rw [if_neg (by simpa using hroot), if_neg hbegins]
      exact hname
  · intro h
    split at h
    · next hc =>
      obtain ⟨written, rfl, rfl⟩ := h
      exact ⟨⟨.root, written⟩, by rw [hc]; rfl, rfl⟩
    · next hroot =>
      split at h
      · obtain ⟨written, hchars, rfl⟩ := h
        exact ⟨⟨.nothing, written⟩, hchars, rfl⟩
      · obtain ⟨letters, rest, hplain, hcs, hne, after, ⟨written, rfl, rfl⟩, rfl⟩ := h
        have hnotRoot : letters.head? ≠ some '$' := by
          obtain ⟨d, ds, rfl⟩ := List.exists_cons_of_ne_nil hne
          obtain ⟨rfl, -⟩ := List.cons.inj hcs
          simpa using hroot
        exact ⟨⟨.bare ⟨letters, hne, hplain⟩ hnotRoot, written⟩, hcs, rfl⟩

/-! ### What a step of the reader leaves -/

/-- The reader has been moved, and reads the rest. -/
def ReadsAfter (moved : Except PathFault PathReader) (cs : List Char) (steps : List Step) : Prop :=
  ∃ r, moved = .ok r ∧ r.Reads cs steps

@[simp] theorem readsAfter_ok : ReadsAfter (.ok r) cs steps ↔ r.Reads cs steps := by
  simp [ReadsAfter]

@[simp] theorem not_readsAfter_error (fault : PathFault) :
    ¬ ReadsAfter (.error fault) cs steps := by
  simp [ReadsAfter]

theorem readsAfter_beginStep : ReadsAfter (r.beginStep c) cs steps ↔
    ∃ after, AwaitsSteps (c :: cs) after ∧ steps = r.found.reverse ++ after := by
  unfold beginStep
  split
  · next hc => simp [Reads, Mode.Awaits, awaitsSteps_cons, hc]
  · next hdot =>
    split
    · next hc => simp [Reads, Mode.Awaits, awaitsSteps_cons, hc]
    · next hopen => simp [awaitsSteps_cons, hdot, hopen]

theorem exists_found_cons {found : List Step} {s : Step} {P : List Step → Prop} :
    (∃ after, (∃ rest, P rest ∧ after = s :: rest) ∧ steps = found.reverse ++ after) ↔
      ∃ rest, P rest ∧ steps = (s :: found).reverse ++ rest := by
  constructor
  · rintro ⟨_, ⟨rest, hrest, rfl⟩, rfl⟩
    exact ⟨rest, hrest, by simp⟩
  · rintro ⟨rest, hrest, rfl⟩
    exact ⟨s :: rest, ⟨rest, hrest, rfl⟩, by simp⟩

theorem readsAfter_continueName : ReadsAfter (r.continueName letters c) cs steps ↔
    ∃ after, AwaitsName letters (c :: cs) after ∧ steps = r.found.reverse ++ after := by
  unfold continueName
  split
  · next hbegins =>
    have hname : isNameChar c = false := by
      simp only [Bool.or_eq_true, decide_eq_true_eq] at hbegins
      rcases hbegins with rfl | rfl <;> decide
    simp only [AwaitsName, awaitsRun_cons_of_neg hname, EndsName]
    cases letters with
    | nil => simp [endName, bind, Except.bind]
    | cons d letters =>
      have hmoved : ((r.endName (d :: letters)).bind fun r => r.beginStep c) =
          (r.addStep (.key (String.ofList (d :: letters).reverse))).beginStep c := rfl
      have hne : (d :: letters).reverse ≠ [] := by simp
      simp only [bind, hmoved, readsAfter_beginStep, hne, ne_eq, not_false_eq_true, true_and,
        exists_found_cons]
      rfl
  · next hbegins =>
    split
    · next hrefused =>
      have hname : isNameChar c = false := by
        simp only [isNameChar]
        grind
      simp only [AwaitsName, awaitsRun_cons_of_neg hname, EndsName, not_readsAfter_error, false_iff]
      rintro ⟨_, ⟨-, after, hafter, -⟩, -⟩
      exact absurd (begins_of_awaitsSteps hafter) (by simpa using hbegins)
    · next hrefused =>
      have hname : isNameChar c := by
        simp only [isNameChar]
        grind
      simp only [readsAfter_ok, awaitsName_cons_of_name hname]
      rfl

theorem readsAfter_continueIndex : ReadsAfter (r.continueIndex letters c) cs steps ↔
    ∃ after, AwaitsIndex letters (c :: cs) after ∧ steps = r.found.reverse ++ after := by
  unfold continueIndex
  split
  · next hc =>
    subst hc
    simp only [awaitsIndex_cons_close]
    unfold endIndex
    split
    · next n hn =>
      obtain ⟨i, hi, rfl⟩ := WrittenIndex.naturalOf?_trimChars_eq_some.mp hn
      have honly : ∀ j : WrittenIndex, j.chars = letters.reverse ↔ j = i := fun j =>
        ⟨fun hj => WrittenIndex.chars_injective (hj.trans hi.symm), fun hj => hj ▸ hi⟩
      simp only [honly, exists_eq_left, exists_found_cons, readsAfter_ok]
      rfl
    · next hn =>
      simp only [not_readsAfter_error, false_iff]
      rintro ⟨_, ⟨i, hi, -⟩, -⟩
      have hsome := WrittenIndex.naturalOf?_trimChars_eq_some.mpr ⟨i, hi, rfl⟩
      exact absurd (hn.symm.trans hsome) (by simp)
  · next hc =>
    simp only [readsAfter_ok, awaitsIndex_cons_of_ne hc]
    rfl

/-- A character moves the reader to where it waits for the rest. -/
theorem readsAfter_step : ReadsAfter (r.step c) cs steps ↔ r.Reads (c :: cs) steps := by
  obtain ⟨found, mode⟩ := r
  unfold step
  cases mode with
  | start =>
    simp only [Reads, awaitsStart_cons]
    by_cases hroot : c = '$'
    · simp only [hroot, if_true, readsAfter_ok]
      rfl
    · by_cases hbegins : c = '.' ∨ c = '['
      · simp [hroot, hbegins, readsAfter_beginStep]
      · simp [hroot, hbegins, readsAfter_continueName]
  | between => exact readsAfter_beginStep
  | name letters => exact readsAfter_continueName
  | bracket =>
    by_cases hquote : c = '\x27' ∨ c = '"'
    · simp [Reads, Mode.Awaits, hquote, awaitsBracket_cons_quote hquote]
    · simp [Reads, Mode.Awaits, hquote, awaitsBracket_cons_of_not_quote hquote,
        readsAfter_continueIndex]
  | quoted quote letters =>
    by_cases hquote : c = quote
    · subst hquote
      simp [Reads, Mode.Awaits, awaitsQuote_cons_self]
    · simp [Reads, Mode.Awaits, hquote, awaitsQuote_cons_of_ne hquote]
  | afterQuote key =>
    by_cases hclose : c = ']'
    · simp only [Reads, Mode.Awaits, hclose, awaitsClose_cons, true_and, exists_found_cons, if_true,
        readsAfter_ok]
      rfl
    · simp [Reads, Mode.Awaits, hclose, awaitsClose_cons]
  | index digits => exact readsAfter_continueIndex

theorem foldlM_finish_eq_ok :
    (cs.foldlM step r >>= finish) = .ok steps ↔ r.Reads cs steps := by
  induction cs generalizing r with
  | nil => exact reads_nil.symm
  | cons c cs ih =>
    rw [← readsAfter_step, List.foldlM_cons]
    cases hmoved : r.step c with
    | error fault => simp [bind, Except.bind]
    | ok r' => exact ih.trans readsAfter_ok.symm

end PathReader

theorem stepsOfChars_eq_ok {cs : List Char} {steps : List Step} :
    stepsOfChars cs = .ok steps ↔ ∃ p : WrittenPath, p.chars = cs ∧ p.steps = steps := by
  have hreads : stepsOfChars cs = .ok steps ↔ PathReader.Reads ⟨[], .start⟩ cs steps :=
    PathReader.foldlM_finish_eq_ok
  rw [hreads]
  constructor
  · rintro ⟨_, ⟨p, rfl, rfl⟩, rfl⟩
    exact ⟨p, rfl, rfl⟩
  · rintro ⟨p, rfl, rfl⟩
    exact ⟨p.steps, ⟨p, rfl, rfl⟩, rfl⟩

theorem Path.ofText_eq_ok {s : String} {path : Path} : Path.ofText s = .ok path ↔
    ∃ steps, stepsOfChars (Text.trim s).toList = .ok steps ∧ path = ⟨Text.trim s, steps⟩ := by
  unfold Path.ofText
  cases hsteps : stepsOfChars (Text.trim s).toList with
  | error fault => simp [hsteps, bind, Except.bind]
  | ok steps => simp [hsteps, bind, Except.bind, pure, Except.pure, eq_comm]

/-- A text is a path exactly if it is a written one with white space around it, and then it has the
steps that are written; and there is only one way in which it is written. -/
theorem Path.ofText_eq_ok_iff (s : String) :
    (∀ path, Path.ofText s = .ok path ↔
      ∃ p : WrittenPath, Text.StandsIn p.chars s.toList ∧ path = p.path) ∧
    ∀ p p' : WrittenPath, Text.StandsIn p.chars s.toList → Text.StandsIn p'.chars s.toList →
      p = p' := by
  have htrim {p : WrittenPath} (hp : Text.StandsIn p.chars s.toList) :
      Text.trimChars s.toList = p.chars := p.tight_chars.trimChars_eq hp
  refine ⟨fun path => ?_, fun p p' hp hp' => ?_⟩
  · rw [Path.ofText_eq_ok, Text.trim, String.toList_ofList]
    constructor
    · rintro ⟨steps, hsteps, rfl⟩
      obtain ⟨p, hchars, rfl⟩ := stepsOfChars_eq_ok.mp hsteps
      rw [← hchars]
      exact ⟨p, hchars ▸ Text.standsIn_trimChars s.toList, rfl⟩
    · rintro ⟨p, hp, rfl⟩
      rw [htrim hp]
      exact ⟨p.steps, stepsOfChars_eq_ok.mpr ⟨p, rfl, rfl⟩, rfl⟩
  · exact WrittenPath.chars_injective ((htrim hp).symm.trans (htrim hp'))

example : Path.ofText " $.a['b c'][ +02 ] " =
    .ok ⟨"$.a['b c'][ +02 ]", [.key "a", .key "b c", .index 2]⟩ := by
  decide +kernel

end Fieldwise.Json
