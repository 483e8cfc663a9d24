import Fieldwise.Text.Basic
import Mathlib.Data.List.TakeWhile

/-!
What trimming comes to. A text is what trimming leaves of it with white space before and after; and
what neither begins nor ends with white space is what trimming leaves of any text in which it stands
in this way.
-/

namespace Fieldwise.Text

section

variable {α : Type} {p : α → Bool} {run run' rest rest' : List α}

/-- A run of one class ends where something of another class follows, or nothing. -/
theorem takeWhile_append_of_head (hrun : ∀ a ∈ run, p a) (hrest : ∀ a ∈ rest.head?, p a = false) :
    (run ++ rest).takeWhile p = run := by
  rw [List.takeWhile_append_of_pos hrun]
  cases rest with
  | nil => simp
  | cons a rest => simp [hrest a (by simp)]

theorem run_append_inj (hrun : ∀ a ∈ run, p a) (hrun' : ∀ a ∈ run', p a)
    (hrest : ∀ a ∈ rest.head?, p a = false) (hrest' : ∀ a ∈ rest'.head?, p a = false)
    (h : run ++ rest = run' ++ rest') : run = run' ∧ rest = rest' := by
  have hsame : run = run' := by
    rw [← takeWhile_append_of_head hrun hrest, h, takeWhile_append_of_head hrun' hrest']
  subst hsame
  exact ⟨rfl, List.append_cancel_left h⟩

end

variable {cs core before after front back : List Char}

/-- White space is neither the first nor the last of it. -/
structure Tight (cs : List Char) : Prop where
  head : ∀ c ∈ cs.head?, isBlankChar c = false
  last : ∀ c ∈ cs.getLast?, isBlankChar c = false

namespace Tight

theorem of_no_blank (h : ∀ c ∈ cs, isBlankChar c = false) : Tight cs where
  head c hc := h c (List.mem_of_mem_head? hc)
  last c hc := h c (List.mem_of_mem_getLast? hc)

theorem append (hfront : Tight front) (hback : Tight back) : Tight (front ++ back) where
  head c hc := by
    rw [List.head?_append, Option.mem_def, Option.or_eq_some_iff] at hc
    exact hc.elim (hfront.head c) fun hc => hback.head c hc.2
  last c hc := by
    rw [List.getLast?_append, Option.mem_def, Option.or_eq_some_iff] at hc
    exact hc.elim (hback.last c) fun hc => hfront.last c hc.2

end Tight

/-- It stands there with nothing but white space around it. -/
def StandsIn (core cs : List Char) : Prop :=
  ∃ before after : List Char, (∀ c ∈ before, isBlankChar c) ∧ (∀ c ∈ after, isBlankChar c) ∧
    cs = before ++ core ++ after

theorem trimStart_append (hbefore : ∀ c ∈ before, isBlankChar c)
    (hhead : ∀ c ∈ cs.head?, isBlankChar c = false) : trimStart (before ++ cs) = cs := by
  rw [trimStart, List.dropWhile_append_of_pos hbefore]
  cases cs with
  | nil => rfl
  | cons c cs => simp [hhead c (by simp)]

theorem trimStart_of_head (h : ∀ c ∈ cs.head?, isBlankChar c = false) : trimStart cs = cs := by
  have hnothing : ∀ c ∈ ([] : List Char), isBlankChar c := by simp
  exact trimStart_append hnothing h

theorem trimEnd_append (hafter : ∀ c ∈ after, isBlankChar c)
    (hlast : ∀ c ∈ cs.getLast?, isBlankChar c = false) : trimEnd (cs ++ after) = cs := by
  have hstart : trimStart (after.reverse ++ cs.reverse) = cs.reverse :=
    trimStart_append (by simpa using hafter) (by simpa using hlast)
  rw [trimEnd, List.reverse_append, ← trimStart, hstart, List.reverse_reverse]

theorem Tight.trimChars_eq (htight : Tight core) (h : StandsIn core cs) :
    trimChars cs = core := by
  obtain ⟨before, after, hbefore, hafter, rfl⟩ := h
  rw [trimChars, List.append_assoc]
  cases hcore : core with
  | nil =>
    -- Here all is white space, so nothing says where what is before ends.
    have hblank : trimStart (before ++ ([] ++ after)) = [] :=
      List.dropWhile_eq_nil_iff.mpr fun c hc =>
        (List.mem_append.mp hc).elim (hbefore c) (hafter c)
    rw [hblank]
    rfl
  | cons c tail =>
    rw [← hcore, trimStart_append hbefore, trimEnd_append hafter htight.last]
    intro d hd
    exact htight.head d (by simpa [hcore] using hd)

theorem standsIn_trimChars (cs : List Char) : StandsIn (trimChars cs) cs := by
  refine ⟨cs.takeWhile isBlankChar, ((trimStart cs).reverse.takeWhile isBlankChar).reverse,
    fun c hc => List.mem_takeWhile_imp hc,
    fun c hc => List.mem_takeWhile_imp (List.mem_reverse.mp hc), ?_⟩
  rw [trimChars, trimEnd, List.append_assoc, ← List.reverse_append,
    List.takeWhile_append_dropWhile, List.reverse_reverse, trimStart,
    List.takeWhile_append_dropWhile]

theorem trim_of_no_blank {s : String} (h : ∀ c ∈ s.toList, isBlankChar c = false) :
    trim s = s := by
  have htight : Tight s.toList := .of_no_blank h
  rw [trim, htight.trimChars_eq ⟨[], [], by simp, by simp, by simp⟩, String.ofList_toList]

end Fieldwise.Text
