import Fieldwise.Text.Basic
import Fieldwise.Text.LetterCase

/-!
Texts that differ in the letter case of the ASCII range alone have one lower-case form. A capital
letter and its small one are lower-cased to the same, and both are cased and not case-ignorable, so
a sigma beside them takes the same form too.
-/

namespace Fieldwise.Text

/-- The number of a capital or of a small letter of the ASCII range. -/
def IsLetter (n : Nat) : Prop := 65 ≤ n ∧ n ≤ 90 ∨ 97 ≤ n ∧ n ≤ 122

theorem toLower_cases (c : Char) :
    c.toLower = c ∨ 65 ≤ c.toNat ∧ c.toNat ≤ 90 ∧ c.toLower.toNat = c.toNat + 32 := by
  unfold Char.toLower
  split
  · next h =>
    refine .inr ⟨h.1, h.2, ?_⟩
    have hlast : c.val.toNat ≤ 90 := h.2
    change (c.val + ('a'.val - 'A'.val)).toNat = c.val.toNat + 32
    rw [UInt32.toNat_add, Nat.mod_eq_of_lt]
    · rfl
    · change c.val.toNat + 32 < 2 ^ 32
      omega
  · exact .inl rfl

/-! ### What the tables say of letters -/

/-- No run has a small letter, which so has no lower-case partner. -/
theorem lowerCaseRuns_apart :
    (lowerCaseRuns.toList.all fun r => r.last < 97 || 122 < r.first) = true := by
  decide +kernel

theorem caseIgnorableRanges_apart :
    (caseIgnorableRanges.toList.all fun r => r.2 < 65 || 122 < r.1 || (90 < r.1 && r.2 < 97)) =
      true := by
  decide +kernel

theorem mem_casedRanges : (0x41, 0x5A) ∈ casedRanges ∧ (0x61, 0x7A) ∈ casedRanges := by
  simp only [← Array.mem_toList_iff]
  decide +kernel

theorem inRanges_casedRanges {n : Nat} (h : IsLetter n) : inRanges casedRanges n = true := by
  rw [inRanges_iff]
  rcases h with h | h
  · exact ⟨_, mem_casedRanges.1, h⟩
  · exact ⟨_, mem_casedRanges.2, h⟩

theorem inRanges_caseIgnorableRanges {n : Nat} (h : IsLetter n) :
    inRanges caseIgnorableRanges n = false := by
  rw [← Bool.not_eq_true, inRanges_iff]
  rintro ⟨r, hr, hin⟩
  have hapart := List.all_eq_true.mp caseIgnorableRanges_apart r (by simpa using hr)
  simp only [Bool.or_eq_true, Bool.and_eq_true, decide_eq_true_eq] at hapart
  unfold IsLetter at h
  omega

theorem lowerChar_of_capital {c : Char} (hfirst : 65 ≤ c.toNat) (hlast : c.toNat ≤ 90) :
    lowerChar c = [Char.ofNat (c.toNat + 32)] := by
  obtain ⟨rest, hrest⟩ : ∃ rest, lowerCaseRuns.toList = ⟨0x41, 0x5A, 1, 32⟩ :: rest := ⟨_, rfl⟩
  have hcovers : CaseRun.covers ⟨0x41, 0x5A, 1, 32⟩ c.toNat = true := by
    simp [CaseRun.covers, hfirst, hlast, Nat.mod_one]
  have hne : c ≠ '\u0130' := by
    rintro rfl
    exact absurd hlast (by decide)
  rw [lowerChar, if_neg hne, ← Array.find?_toList, hrest, List.find?_cons]
  simp only [hcovers]
  rfl

theorem lowerChar_of_small {c : Char} (hfirst : 97 ≤ c.toNat) (hlast : c.toNat ≤ 122) :
    lowerChar c = [c] := by
  have hnone : lowerCaseRuns.toList.find? (·.covers c.toNat) = none := by
    rw [List.find?_eq_none]
    intro r hr hcovers
    have hapart := List.all_eq_true.mp lowerCaseRuns_apart r hr
    simp only [CaseRun.covers, Bool.or_eq_true, Bool.and_eq_true, decide_eq_true_eq]
      at hapart hcovers
    omega
  have hne : c ≠ '\u0130' := by
    rintro rfl
    exact absurd hlast (by decide)
  rw [lowerChar, if_neg hne, ← Array.find?_toList, hnone]

/-! ### Lower-casing a text in other letter case -/

theorem lowerChar_toLower (c : Char) : lowerChar c.toLower = lowerChar c := by
  rcases toLower_cases c with h | ⟨hfirst, hlast, h⟩
  · rw [h]
  · rw [lowerChar_of_capital hfirst hlast, ← h, Char.ofNat_toNat,
      lowerChar_of_small (by omega) (by omega)]

theorem inRanges_toLower {ranges : Array (Nat × Nat)} {b : Bool}
    (h : ∀ n, IsLetter n → inRanges ranges n = b) (c : Char) :
    inRanges ranges c.toLower.toNat = inRanges ranges c.toNat := by
  rcases toLower_cases c with hc | ⟨hfirst, hlast, hc⟩
  · rw [hc]
  · rw [h _ (.inl ⟨hfirst, hlast⟩), hc, h _ (.inr ⟨by omega, by omega⟩)]

theorem toLower_eq_sigma_iff (c : Char) : c.toLower = '\u03A3' ↔ c = '\u03A3' := by
  rcases toLower_cases c with h | ⟨hfirst, hlast, h⟩
  · rw [h]
  · refine ⟨fun hc => ?_, fun hc => ?_⟩
    · rw [hc] at h
      exact absurd h (by simp; omega)
    · rw [hc] at hlast
      exact absurd hlast (by decide)

theorem startsCased_cons (c : Char) (rest : List Char) : startsCased (c :: rest) =
    if inRanges caseIgnorableRanges c.toNat = true then startsCased rest
    else inRanges casedRanges c.toNat := by
  rw [startsCased, List.dropWhile_cons]
  by_cases h : inRanges caseIgnorableRanges c.toNat = true
  · rw [if_pos h, if_pos h, startsCased]
  · rw [if_neg h, if_neg h]

theorem startsCased_map_toLower (cs : List Char) :
    startsCased (cs.map Char.toLower) = startsCased cs := by
  induction cs with
  | nil => rfl
  | cons c rest ih =>
    rw [List.map_cons, startsCased_cons, startsCased_cons, ih,
      inRanges_toLower fun _ => inRanges_caseIgnorableRanges,
      inRanges_toLower fun _ => inRanges_casedRanges]

theorem lowerAfter_map_toLower (before cs : List Char) :
    lowerAfter (before.map Char.toLower) (cs.map Char.toLower) = lowerAfter before cs := by
  induction cs generalizing before with
  | nil => rfl
  | cons c rest ih =>
    have hrest := ih (c :: before)
    rw [List.map_cons] at hrest
    rw [List.map_cons, lowerAfter, lowerAfter, hrest, lowerChar_toLower]
    simp only [toLower_eq_sigma_iff, startsCased_map_toLower]

theorem lowercase_eq_of_sameIgnoringAsciiCase {a b : String}
    (h : sameIgnoringAsciiCase a b = true) : lowercase a = lowercase b := by
  have hlower (s : String) : lowercase (lowerAscii s) = lowercase s := by
    rw [lowercase, lowerAscii, String.toList_ofList, lowercase]
    exact congrArg String.ofList (lowerAfter_map_toLower [] s.toList)
  rw [← hlower a, ← hlower b, eq_of_beq h]

end Fieldwise.Text
