import Fieldwise.Number.Shortest
import Fieldwise.Proofs.Number.Values

/-!
Rounding to floating-point numbers. The number nearest to a value attracts it: the value is at most
half an ulp away, or a quarter below a power of two, and the ends belong to the even significands.
From that alone follow the bounds on the error of one operation, and that whole numbers of 53 bits
are kept.
-/

namespace Fieldwise.Binary64

variable {x y : Binary64} {q : ℚ}

/-! ### What a number attracts -/

def ulp (x : Binary64) : ℚ := (2 : ℚ) ^ x.exponent

/-- How far a number reaches down, in ulps: the numbers below a power of two lie closer. -/
def reachDown (x : Binary64) : ℚ :=
  if x.significand = 2 ^ 52 ∧ -1074 < x.exponent then 1 / 4 else 1 / 2

def low (x : Binary64) : ℚ := (x.significand - x.reachDown) * x.ulp

def high (x : Binary64) : ℚ := (x.significand + 1 / 2) * x.ulp

/-- The values that are rounded to this number. -/
def Attracts (x : Binary64) (q : ℚ) : Prop :=
  if x.significand % 2 = 0 then x.low ≤ q ∧ q ≤ x.high else x.low < q ∧ q < x.high

theorem ulp_pos (x : Binary64) : 0 < x.ulp := zpow_pos two_pos _

theorem magnitude_value_eq (x : Binary64) : x.magnitude.value = x.significand * x.ulp :=
  x.magnitude_value

theorem mul_ulp_le (h : 2 ^ 52 ≤ x.significand) : 2 ^ 52 * x.ulp ≤ x.magnitude.value := by
  rw [magnitude_value_eq]
  exact mul_le_mul_of_nonneg_right (by exact_mod_cast h) x.ulp_pos.le

theorem reachDown_le (x : Binary64) : 0 < x.reachDown ∧ x.reachDown ≤ 1 / 2 := by
  unfold reachDown
  split <;> norm_num

theorem low_lt_magnitude (x : Binary64) : x.low < x.magnitude.value := by
  rw [magnitude_value_eq, low]
  have hreach := x.reachDown_le.1
  exact mul_lt_mul_of_pos_right (by linarith) x.ulp_pos

theorem magnitude_lt_high (x : Binary64) : x.magnitude.value < x.high := by
  rw [magnitude_value_eq, high]
  exact mul_lt_mul_of_pos_right (by linarith) x.ulp_pos

theorem Attracts.of_lt (hlow : x.low < q) (hhigh : q < x.high) : x.Attracts q := by
  unfold Attracts
  split
  · exact ⟨hlow.le, hhigh.le⟩
  · exact ⟨hlow, hhigh⟩

theorem Attracts.le (h : x.Attracts q) : x.low ≤ q ∧ q ≤ x.high := by
  unfold Attracts at h
  split at h
  · exact h
  · exact ⟨h.1.le, h.2.le⟩

theorem attracts_magnitude (x : Binary64) : x.Attracts x.magnitude.value :=
  .of_lt x.low_lt_magnitude x.magnitude_lt_high

theorem Attracts.between {a b : ℚ} (ha : x.Attracts a) (hb : x.Attracts b) (hlow : a ≤ q)
    (hhigh : q ≤ b) : x.Attracts q := by
  unfold Attracts at *
  split at ha
  · next heven =>
    rw [if_pos heven] at hb ⊢
    exact ⟨ha.1.trans hlow, hhigh.trans hb.2⟩
  · next hodd =>
    rw [if_neg hodd] at hb ⊢
    exact ⟨ha.1.trans_le hlow, hhigh.trans_lt hb.2⟩

theorem attracts_mul_ulp {w : ℚ} : x.Attracts (w * x.ulp) ↔
    if x.significand % 2 = 0 then x.significand - x.reachDown ≤ w ∧ w ≤ x.significand + 1 / 2
    else x.significand - x.reachDown < w ∧ w < x.significand + 1 / 2 := by
  unfold Attracts low high
  rw [mul_le_mul_iff_of_pos_right x.ulp_pos, mul_le_mul_iff_of_pos_right x.ulp_pos,
    mul_lt_mul_iff_of_pos_right x.ulp_pos, mul_lt_mul_iff_of_pos_right x.ulp_pos]

theorem lowerEnd_value (hx : 0 < x.significand) : x.lowerEnd.value = x.low := by
  unfold lowerEnd low reachDown ulp
  split
  · rw [Fraction.value_scaled, Nat.cast_sub (by omega)]
    push_cast
    rw [zpow_sub₀ two_ne_zero]
    ring
  · rw [Fraction.value_scaled, Nat.cast_sub (by omega)]
    push_cast
    rw [zpow_sub₀ two_ne_zero]
    ring

theorem upperEnd_value (x : Binary64) : x.upperEnd.value = x.high := by
  rw [upperEnd, Fraction.value_scaled, high, ulp]
  push_cast
  rw [zpow_sub₀ two_ne_zero]
  ring

theorem attracts_iff (hx : 0 < x.significand) {v : Fraction} (hv : 0 < v.den) :
    x.attracts v ↔ x.Attracts v.value := by
  have hlower : 0 < x.lowerEnd.den := by
    unfold lowerEnd
    split <;> exact Fraction.scaled_den_pos _ two_pos _
  have hupper : 0 < x.upperEnd.den := Fraction.scaled_den_pos _ two_pos _
  unfold attracts Attracts
  rw [← lowerEnd_value hx, ← upperEnd_value]
  split
  · rw [Bool.and_eq_true, Fraction.le_iff hlower hv, Fraction.le_iff hv hupper]
  · rw [Bool.and_eq_true, Fraction.lt_iff hlower hv, Fraction.lt_iff hv hupper]

/-! ### The nearest number -/

/-- Values of which the binary logarithm is known have a significand of 53 or 54 bits. -/
theorem value_div_lt {v : Fraction} (hnum : 0 < v.num) (hden : 0 < v.den) :
    (2 : ℚ) ^ ((v.num.log2 : ℤ) - v.den.log2 - 1) < v.value ∧
      v.value < (2 : ℚ) ^ ((v.num.log2 : ℤ) - v.den.log2 + 1) := by
  have hnumLow : (2 : ℚ) ^ v.num.log2 ≤ v.num := by exact_mod_cast Nat.log2_self_le hnum.ne'
  have hnumHigh : (v.num : ℚ) < 2 ^ (v.num.log2 + 1) := by exact_mod_cast Nat.lt_log2_self
  have hdenLow : (2 : ℚ) ^ v.den.log2 ≤ v.den := by exact_mod_cast Nat.log2_self_le hden.ne'
  have hdenHigh : (v.den : ℚ) < 2 ^ (v.den.log2 + 1) := by exact_mod_cast Nat.lt_log2_self
  have hdenPos : (0 : ℚ) < v.den := by exact_mod_cast hden
  constructor
  · rw [Fraction.value, lt_div_iff₀ hdenPos, zpow_sub₀ two_ne_zero, zpow_sub₀ two_ne_zero,
      zpow_natCast, zpow_natCast, zpow_one]
    calc (2 : ℚ) ^ v.num.log2 / 2 ^ v.den.log2 / 2 * v.den
        < 2 ^ v.num.log2 / 2 ^ v.den.log2 / 2 * 2 ^ (v.den.log2 + 1) :=
          mul_lt_mul_of_pos_left hdenHigh (by positivity)
      _ = 2 ^ v.num.log2 := by field_simp; ring
      _ ≤ v.num := hnumLow
  · rw [Fraction.value, div_lt_iff₀ hdenPos, zpow_add₀ two_ne_zero, zpow_sub₀ two_ne_zero,
      zpow_natCast, zpow_natCast, zpow_one]
    calc (v.num : ℚ) < 2 ^ (v.num.log2 + 1) := hnumHigh
      _ = 2 ^ v.num.log2 / 2 ^ v.den.log2 * 2 * 2 ^ v.den.log2 := by field_simp; ring
      _ ≤ 2 ^ v.num.log2 / 2 ^ v.den.log2 * 2 * v.den :=
          mul_le_mul_of_nonneg_left hdenLow (by positivity)

/-- At its exponent a value has a significand of 53 bits, or the exponent is the least one. -/
theorem exponentFor_spec {v : Fraction} (hnum : 0 < v.num) (hden : 0 < v.den) :
    -1074 ≤ exponentFor v ∧ v.value < 2 ^ 53 * (2 : ℚ) ^ exponentFor v ∧
      (exponentFor v = -1074 ∨ 2 ^ 52 * (2 : ℚ) ^ exponentFor v ≤ v.value) := by
  obtain ⟨hlow, hhigh⟩ := value_div_lt hnum hden
  set a : ℤ := (v.num.log2 : ℤ) - v.den.log2 with ha
  have hdouble (e : ℤ) : (2 : ℚ) ^ (e + 1) = 2 * 2 ^ e := by
    rw [zpow_add₀ two_ne_zero, zpow_one, mul_comm]
  have hfloor (e : ℤ) : (v.div (Fraction.power 2 e)).floor < 2 ^ 53 ↔
      v.value < 2 ^ 53 * (2 : ℚ) ^ e := by
    rw [Fraction.floor_eq, Nat.floor_lt (Fraction.value_nonneg _), Fraction.value_div,
      Fraction.value_power, Nat.cast_ofNat, div_lt_iff₀ (zpow_pos two_pos _)]
    norm_cast
  unfold exponentFor
  simp only [← ha, hfloor]
  set e : ℤ := max (a - 53) (-1074) with he
  have hbelow : v.value < 2 ^ 54 * (2 : ℚ) ^ e :=
    calc v.value < (2 : ℚ) ^ (a + 1) := hhigh
      _ ≤ (2 : ℚ) ^ (54 + e) := zpow_le_zpow_right₀ one_le_two (by omega)
      _ = 2 ^ 54 * (2 : ℚ) ^ e := by rw [zpow_add₀ two_ne_zero]; norm_cast
  split
  · next hfits =>
    refine ⟨by omega, hfits, ?_⟩
    rcases le_or_gt (a - 53) (-1074) with hmin | hmin
    · exact .inl (by omega)
    · right
      calc 2 ^ 52 * (2 : ℚ) ^ e = (2 : ℚ) ^ (52 + e) := by rw [zpow_add₀ two_ne_zero]; norm_cast
        _ ≤ (2 : ℚ) ^ (a - 1) := zpow_le_zpow_right₀ one_le_two (by omega)
        _ ≤ v.value := hlow.le
  · next hfits =>
    rw [hdouble]
    refine ⟨by omega, by linarith, .inr (by linarith)⟩

theorem ofParts?_eq_some {negative : Bool} {m : ℕ} {e : ℤ} (h : ofParts? negative m e = some y) :
    y.negative = negative ∧ y.significand = m ∧ y.exponent = e := by
  unfold ofParts? at h
  split at h
  · obtain rfl := Option.some.inj h
    exact ⟨rfl, rfl, rfl⟩
  · cases h

/-- A significand to which a value is rounded attracts it, unless it has 54 bits. -/
theorem attracts_rounded {w : ℚ} (hnear : |y.significand - w| ≤ 1 / 2)
    (heven : |y.significand - w| = 1 / 2 → y.significand % 2 = 0)
    (hnormal : y.exponent = -1074 ∨ 2 ^ 52 ≤ w) : y.Attracts (w * y.ulp) := by
  obtain ⟨hdown, hup⟩ := abs_le.mp hnear
  -- Below a power of two the value is not, since its exponent is that of the number.
  have hreach : y.significand - y.reachDown ≤ w ∧
      (y.significand - y.reachDown = w → |y.significand - w| = 1 / 2) := by
    unfold reachDown
    split
    · next hpower =>
      have hw : (y.significand : ℚ) ≤ w := by
        rw [hpower.1]
        exact_mod_cast hnormal.resolve_left (by omega)
      exact ⟨by linarith, fun h => by linarith⟩
    · exact ⟨by linarith, fun h => by rw [← h, abs_of_nonneg] <;> linarith⟩
  rw [attracts_mul_ulp]
  split
  · exact ⟨hreach.1, by linarith⟩
  · next hodd =>
    have hoff : |y.significand - w| ≠ 1 / 2 := fun htie => hodd (heven htie)
    refine ⟨lt_of_le_of_ne hreach.1 fun h => hoff (hreach.2 h), ?_⟩
    refine lt_of_le_of_ne (by linarith) fun h => hoff ?_
    rw [abs_of_nonpos] <;> linarith

/-- A value that is rounded to a significand of 54 bits goes to the next power of two. -/
theorem attracts_carried {w : ℚ} (hpower : y.significand = 2 ^ 52) (hexponent : -1074 < y.exponent)
    (hlow : 2 ^ 53 - 1 / 2 ≤ w) (hhigh : w < 2 ^ 53) : y.Attracts (w / 2 * y.ulp) := by
  have hreach : y.reachDown = 1 / 4 := if_pos ⟨hpower, hexponent⟩
  rw [attracts_mul_ulp, hpower, hreach, if_pos (by norm_num)]
  push_cast
  constructor <;> linarith

theorem nearest?_spec {negative : Bool} {v : Fraction} (hnum : 0 < v.num) (hden : 0 < v.den)
    (h : nearest? negative v = some y) : y.negative = negative ∧ y.Attracts v.value := by
  obtain ⟨hmin, hlt, hnormal⟩ := exponentFor_spec hnum hden
  unfold nearest? at h
  rw [if_neg hnum.ne'] at h
  simp only at h
  generalize exponentFor v = e at h hmin hlt hnormal
  have hunit : (0 : ℚ) < 2 ^ e := zpow_pos two_pos e
  obtain ⟨hnear, heven⟩ := Fraction.roundHalfEven_spec
    (Fraction.div_den_pos hden (Fraction.power_num_pos two_pos e))
  rw [Fraction.value_div, Fraction.value_power, Nat.cast_ofNat] at hnear heven
  generalize (v.div (Fraction.power 2 e)).roundHalfEven = m at h hnear heven
  obtain ⟨w, hvalue⟩ : ∃ w, v.value = w * 2 ^ e :=
    ⟨v.value / 2 ^ e, (div_mul_cancel₀ _ hunit.ne').symm⟩
  rw [hvalue, mul_div_cancel_right₀ _ hunit.ne'] at hnear heven
  rw [hvalue, mul_lt_mul_iff_of_pos_right hunit] at hlt
  rw [hvalue, mul_le_mul_iff_of_pos_right hunit] at hnormal
  rw [hvalue]
  split at h
  · obtain ⟨hneg, rfl, rfl⟩ := ofParts?_eq_some h
    exact ⟨hneg, attracts_rounded hnear heven hnormal⟩
  · next hfull =>
    obtain ⟨hneg, hm, he⟩ := ofParts?_eq_some h
    have hhalf : w * 2 ^ e = w / 2 * y.ulp := by
      rw [ulp, he, zpow_add₀ two_ne_zero, zpow_one]
      ring
    have hfull' : (2 : ℚ) ^ 53 ≤ m := by exact_mod_cast Nat.not_lt.mp hfull
    rw [hhalf]
    exact ⟨hneg, attracts_carried hm (by omega) (by linarith [(abs_le.mp hnear).2]) hlt⟩

theorem nearest?_zero {negative : Bool} {v : Fraction} (hnum : v.num = 0)
    (h : nearest? negative v = some y) : y = zero negative := by
  rw [nearest?, if_pos hnum] at h
  exact (Option.some.inj h).symm

theorem negative_of_nearest? {negative : Bool} {v : Fraction} (hden : 0 < v.den)
    (h : nearest? negative v = some y) : y.negative = negative := by
  rcases Nat.eq_zero_or_pos v.num with hnum | hnum
  · rw [nearest?_zero hnum h]
    rfl
  · exact (nearest?_spec hnum hden h).1

/-! ### Errors -/

theorem Attracts.error_le (h : y.Attracts q) (hq : (2 : ℚ) ^ (-1022 : ℤ) ≤ q) :
    |y.magnitude.value - q| ≤ q / 2 ^ 53 := by
  obtain ⟨w, rfl⟩ : ∃ w, q = w * y.ulp := ⟨q / y.ulp, (div_mul_cancel₀ _ y.ulp_pos.ne').symm⟩
  have hulp := y.ulp_pos
  rw [magnitude_value_eq, ← sub_mul, abs_mul, abs_of_pos hulp, mul_div_right_comm]
  refine mul_le_mul_of_nonneg_right ?_ hulp.le
  obtain ⟨hlow, hhigh⟩ := h.le
  replace hlow : y.significand - y.reachDown ≤ w := le_of_mul_le_mul_right hlow hulp
  replace hhigh : w ≤ y.significand + 1 / 2 := le_of_mul_le_mul_right hhigh hulp
  have hreach := y.reachDown_le.2
  rcases le_or_gt (2 ^ 52) w with hw | hw
  · rw [abs_le]
    constructor <;> linarith
  · -- Then the number is the power of two above the value.
    have hle : y.significand ≤ 2 ^ 52 := by
      have hlt : (y.significand : ℚ) < (2 ^ 52 + 1 : ℕ) := by
        push_cast
        linarith
      exact Nat.le_of_lt_succ (by exact_mod_cast hlt)
    obtain ⟨-, hmin, -, hnormal⟩ := y.canonical
    have hexponent : y.exponent ≠ -1074 := by
      intro hexponent
      have hsmall : w * y.ulp < 2 ^ 52 * y.ulp := mul_lt_mul_of_pos_right hw hulp
      have hleast : (2 : ℚ) ^ 52 * y.ulp = 2 ^ (-1022 : ℤ) := by
        rw [ulp, hexponent, ← zpow_natCast, ← zpow_add₀ two_ne_zero]
        rfl
      linarith
    have hpower : y.significand = 2 ^ 52 := le_antisymm hle (hnormal.resolve_right hexponent)
    have hquarter : y.reachDown = 1 / 4 := if_pos ⟨hpower, by omega⟩
    rw [hpower, hquarter] at hlow
    rw [hpower]
    push_cast at hlow ⊢
    rw [abs_of_nonneg (by linarith)]
    linarith

theorem Attracts.eq_natCast {n : ℕ} (h : y.Attracts n) (hn : n < 2 ^ 53) :
    y.magnitude.value = n := by
  obtain ⟨hlow, hhigh⟩ := h.le
  have hreach := y.reachDown_le
  have hn' : (n : ℚ) + 1 ≤ 2 ^ 53 := by exact_mod_cast hn
  obtain ⟨-, -, -, hnormal⟩ := y.canonical
  rcases le_or_gt y.exponent 0 with hexponent | hexponent
  · obtain ⟨k, hk⟩ : ∃ k : ℕ, y.exponent = -k := ⟨y.exponent.natAbs, by omega⟩
    have hulp : y.ulp = 1 / 2 ^ k := by rw [ulp, hk, zpow_neg, zpow_natCast, one_div]
    rw [low, hulp, mul_one_div, div_le_iff₀ (by positivity)] at hlow
    rw [high, hulp, mul_one_div, le_div_iff₀ (by positivity)] at hhigh
    rw [magnitude_value_eq, hulp, mul_one_div, div_eq_iff (by positivity)]
    have hnumber : y.significand = n * 2 ^ k := by
      have hle : (y.significand : ℚ) < (n * 2 ^ k + 1 : ℕ) := by
        push_cast
        linarith
      have hge : ((n * 2 ^ k : ℕ) : ℚ) < (y.significand + 1 : ℕ) := by
        push_cast
        linarith
      have hle' : y.significand < n * 2 ^ k + 1 := by exact_mod_cast hle
      have hge' : n * 2 ^ k < y.significand + 1 := by exact_mod_cast hge
      omega
    rw [hnumber]
    push_cast
    rfl
  · -- An even ulp would make the number larger than 53 bits.
    exfalso
    have hulp : 2 ≤ y.ulp := by
      calc (2 : ℚ) = 2 ^ (1 : ℤ) := (zpow_one 2).symm
        _ ≤ 2 ^ y.exponent := zpow_le_zpow_right₀ one_le_two hexponent
    have hnormal' : 2 ^ 52 ≤ y.significand := hnormal.resolve_right (by omega)
    have hbig : (2 : ℚ) ^ 52 - 1 / 4 ≤ y.significand - y.reachDown := by
      rcases Nat.lt_or_eq_of_le hnormal' with hlt | heq
      · have hlt' : (2 : ℚ) ^ 52 + 1 ≤ y.significand := by exact_mod_cast hlt
        linarith
      · have hquarter : y.reachDown = 1 / 4 := if_pos ⟨heq.symm, by omega⟩
        rw [hquarter, ← heq]
        push_cast
        exact le_refl _
    have hbelow : (2 ^ 52 - 1 / 4) * 2 ≤ y.low :=
      mul_le_mul hbig hulp (by norm_num) (by linarith)
    linarith

end Fieldwise.Binary64
