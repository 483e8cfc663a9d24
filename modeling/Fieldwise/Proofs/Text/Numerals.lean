import Fieldwise.Text.Basic
import Fieldwise.Text.Numeral

/-!
What numerals are made of, and what they are worth: digits, never none, and those of a positive
number do not begin with a zero. Zeros in front of a numeral change nothing of its value.
-/

namespace Fieldwise.Text

theorem isDigit_of_mem_numeral {n : Nat} {c : Char} (h : c ∈ numeral n) : c.isDigit :=
  Nat.isDigit_of_mem_toDigits (by decide) (by decide) h

theorem numeral_ne_nil (n : Nat) : numeral n ≠ [] := Nat.toDigits_ne_nil

@[simp] theorem numeralValue_numeral (n : Nat) : numeralValue (numeral n) = n :=
  Nat.ofDigitChars_ten_toDigits

theorem numeral_of_lt {n : Nat} (h : n < 10) : numeral n = [Nat.digitChar n] :=
  Nat.toDigits_of_lt_base h

theorem numeral_of_le {n : Nat} (h : 10 ≤ n) :
    numeral n = numeral (n / 10) ++ [Nat.digitChar (n % 10)] :=
  Nat.toDigits_of_base_le (by decide) h

theorem numeral_of_pos {n : Nat} (h : 0 < n) : ∃ d ds, numeral n = d :: ds ∧ d ≠ '0' := by
  induction n using Nat.strongRecOn with
  | ind n ih =>
    by_cases hn : n < 10
    · refine ⟨Nat.digitChar n, [], numeral_of_lt hn, ?_⟩
      have hdigits : ∀ m < 10, 0 < m → Nat.digitChar m ≠ '0' := by decide
      exact hdigits n hn h
    · obtain ⟨d, ds, hds, hd⟩ := ih (n / 10) (by omega) (by omega)
      exact ⟨d, ds ++ [Nat.digitChar (n % 10)], by rw [numeral_of_le (by omega), hds]; rfl, hd⟩

theorem length_numeral_le {n width : Nat} (hwidth : 0 < width) (h : n < 10 ^ width) :
    (numeral n).length ≤ width :=
  (Nat.length_toDigits_le_iff (by decide) hwidth).mpr h

theorem isDigit_digitChar (d : Nat) : (digitChar d).isDigit := by
  have h : ∀ r < 10, (Char.ofNat ('0'.toNat + r)).isDigit := by decide
  exact h _ (Nat.mod_lt _ (by decide))

theorem isDigit_of_mem_fixedNumeral {width n : Nat} {c : Char} (h : c ∈ fixedNumeral width n) :
    c.isDigit := by
  induction width generalizing n with
  | zero => simp [fixedNumeral] at h
  | succ width ih =>
    rcases List.mem_append.mp h with h | h
    · exact ih h
    · obtain rfl := List.mem_singleton.mp h
      exact isDigit_digitChar n

theorem length_padLeft {pad : Char} {width : Nat} {cs : List Char} (h : cs.length ≤ width) :
    (padLeft pad width cs).length = width := by
  simp only [padLeft, List.length_append, List.length_replicate]
  omega

theorem isDigit_of_mem_padLeft {width n : Nat} {c : Char} (h : c ∈ padLeft '0' width (numeral n)) :
    c.isDigit := by
  rcases List.mem_append.mp h with h | h
  · obtain rfl := List.eq_of_mem_replicate h
    rfl
  · exact isDigit_of_mem_numeral h

theorem padLeft_numeral_ne_nil (pad : Char) (width n : Nat) :
    padLeft pad width (numeral n) ≠ [] := by
  simp [padLeft, numeral_ne_nil]

theorem numeralValue_zeros_append (zeros : Nat) (cs : List Char) :
    numeralValue (List.replicate zeros '0' ++ cs) = numeralValue cs := by
  induction zeros with
  | zero => rfl
  | succ zeros ih =>
    rw [List.replicate_succ, List.cons_append, ← ih]
    rfl

@[simp] theorem numeralValue_padLeft (width n : Nat) :
    numeralValue (padLeft '0' width (numeral n)) = n := by
  rw [padLeft, numeralValue_zeros_append, numeralValue_numeral]

theorem digitChar_eq (d : Nat) : digitChar d = Nat.digitChar (d % 10) := by
  have h : ∀ r < 10, Char.ofNat ('0'.toNat + r) = Nat.digitChar r := by decide
  exact h _ (Nat.mod_lt _ (by decide))

theorem fixedNumeral_zero (width : Nat) : fixedNumeral width 0 = List.replicate width '0' := by
  induction width with
  | zero => rfl
  | succ width ih =>
    rw [fixedNumeral, ih, List.replicate_succ']
    rfl

/-- A number that fits the width is the same padded and with its last digits only. -/
theorem padLeft_numeral_eq {width n : Nat} (hwidth : 0 < width) (h : n < 10 ^ width) :
    padLeft '0' width (numeral n) = fixedNumeral width n := by
  obtain ⟨width, rfl⟩ := Nat.exists_eq_succ_of_ne_zero (Nat.ne_of_gt hwidth)
  induction width generalizing n with
  | zero =>
    rw [numeral_of_lt h, fixedNumeral, digitChar_eq, Nat.mod_eq_of_lt h]
    rfl
  | succ width ih =>
    rw [fixedNumeral, digitChar_eq]
    by_cases hn : n < 10
    · rw [numeral_of_lt hn, Nat.mod_eq_of_lt hn, Nat.div_eq_of_lt hn, fixedNumeral_zero]
      rfl
    · have hfront := @ih (n / 10) (Nat.succ_pos width) (by rw [Nat.pow_succ] at h; omega)
      rw [numeral_of_le (by omega), ← hfront]
      simp [padLeft]

theorem isBlankChar_of_isDigit {c : Char} (h : c.isDigit) : isBlankChar c = false := by
  simp only [Char.isDigit, Bool.and_eq_true, decide_eq_true_eq, ge_iff_le, UInt32.le_iff_toNat_le]
    at h
  obtain ⟨hlow, hhigh⟩ := h
  simp only [isBlankChar, Char.toNat]
  simp at hlow hhigh ⊢
  omega

/-! ### Runs of digits -/

theorem foldl_digits (n : Nat) (digits : List Char) :
    digits.foldl (fun n c => 10 * n + digitValue c) n =
      n * 10 ^ digits.length + numeralValue digits := by
  induction digits generalizing n with
  | nil => simp [numeralValue]
  | cons c digits ih =>
    have hrest : numeralValue (c :: digits) =
        digitValue c * 10 ^ digits.length + numeralValue digits := by
      show digits.foldl _ (10 * 0 + digitValue c) = _
      rw [ih, Nat.mul_zero, Nat.zero_add]
    rw [List.foldl_cons, ih, hrest, List.length_cons, Nat.pow_succ, ← Nat.add_assoc,
      Nat.add_mul, Nat.mul_comm 10 n, Nat.mul_assoc n 10, Nat.mul_comm 10]

theorem numeralValue_cons (c : Char) (digits : List Char) :
    numeralValue (c :: digits) = digitValue c * 10 ^ digits.length + numeralValue digits := by
  show digits.foldl _ (10 * 0 + digitValue c) = _
  rw [foldl_digits, Nat.mul_zero, Nat.zero_add]

theorem numeralValue_append_digits (front back : List Char) :
    numeralValue (front ++ back) = numeralValue front * 10 ^ back.length + numeralValue back := by
  rw [numeralValue, List.foldl_append, foldl_digits]
  rfl

theorem digitValue_lt {c : Char} (h : c.isDigit) : digitValue c < 10 := by
  simp only [Char.isDigit, Bool.and_eq_true, decide_eq_true_eq, ge_iff_le, UInt32.le_iff_toNat_le]
    at h
  have hhigh : c.toNat ≤ 57 := h.2
  show c.toNat - 48 < 10
  omega

theorem digitValue_eq_zero {c : Char} (h : c.isDigit) : digitValue c = 0 ↔ c = '0' := by
  simp only [Char.isDigit, Bool.and_eq_true, decide_eq_true_eq, ge_iff_le, UInt32.le_iff_toNat_le]
    at h
  have hlow : 48 ≤ c.toNat := h.1
  constructor
  · intro hzero
    apply Char.ext
    apply UInt32.toNat_inj.mp
    show c.toNat = 48
    have hsub : c.toNat - 48 = 0 := hzero
    omega
  · rintro rfl
    rfl

theorem numeralValue_lt {digits : List Char} (h : ∀ c ∈ digits, c.isDigit) :
    numeralValue digits < 10 ^ digits.length := by
  induction digits with
  | nil => decide
  | cons c digits ih =>
    obtain ⟨hc, hdigits⟩ := List.forall_mem_cons.mp h
    have hdigit := digitValue_lt hc
    have hrest := ih hdigits
    rw [numeralValue_cons, List.length_cons, Nat.pow_succ]
    calc digitValue c * 10 ^ digits.length + numeralValue digits
        < digitValue c * 10 ^ digits.length + 10 ^ digits.length := Nat.add_lt_add_left hrest _
      _ = (digitValue c + 1) * 10 ^ digits.length := by rw [Nat.add_mul, Nat.one_mul]
      _ ≤ 10 * 10 ^ digits.length := Nat.mul_le_mul_right _ hdigit
      _ = 10 ^ digits.length * 10 := Nat.mul_comm _ _

theorem numeralValue_eq_zero {digits : List Char} (h : ∀ c ∈ digits, c.isDigit) :
    numeralValue digits = 0 ↔ ∀ c ∈ digits, c = '0' := by
  induction digits with
  | nil => simp [numeralValue]
  | cons c digits ih =>
    obtain ⟨hc, hdigits⟩ := List.forall_mem_cons.mp h
    rw [numeralValue_cons, Nat.add_eq_zero_iff, Nat.mul_eq_zero, ih hdigits,
      List.forall_mem_cons, digitValue_eq_zero hc]
    simp

theorem numeralValue_append_zeros (digits : List Char) (zeros : Nat) :
    numeralValue (digits ++ List.replicate zeros '0') = numeralValue digits * 10 ^ zeros := by
  have hzero : numeralValue (List.replicate zeros '0') = 0 :=
    (numeralValue_eq_zero fun c hc => List.eq_of_mem_replicate hc ▸ rfl).mpr
      fun c hc => List.eq_of_mem_replicate hc
  rw [numeralValue_append_digits, hzero, List.length_replicate, Nat.add_zero]

theorem isDigit_of_mem_zeros {c : Char} {zeros : Nat} (h : c ∈ List.replicate zeros '0') :
    c.isDigit := by
  rw [List.eq_of_mem_replicate h]
  rfl

end Fieldwise.Text
