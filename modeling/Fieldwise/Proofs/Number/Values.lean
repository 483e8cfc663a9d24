import Fieldwise.Number.Binary64
import Fieldwise.Number.Decimal
import Mathlib.Algebra.Order.Floor.Semifield
import Mathlib.Data.Rat.Floor
import Mathlib.Tactic.FieldSimp
import Mathlib.Tactic.Linarith
import Mathlib.Tactic.NormNum
import Mathlib.Tactic.Positivity
import Mathlib.Tactic.Ring

/-!
What numbers are worth, as rational numbers. Fractions calculate as their values do, comparisons and
roundings of fractions are those of the values, and decimals and floating-point numbers are whole
numbers exactly where they say so.
-/

namespace Fieldwise

def signOf (negative : Bool) : ℚ := if negative then -1 else 1

@[simp] theorem signOf_false : signOf false = 1 := rfl

@[simp] theorem signOf_true : signOf true = -1 := rfl

theorem ten_zpow_pos (k : ℤ) : (0 : ℚ) < 10 ^ k := zpow_pos (by norm_num) k

theorem signOf_mul_inj {s t : Bool} {a b : ℚ} (ha : 0 ≤ a) (hb : 0 ≤ b) :
    signOf s * a = signOf t * b ↔ a = b ∧ (s = t ∨ a = 0) := by
  have hopposite {a b : ℚ} (ha : 0 ≤ a) (hb : 0 ≤ b) : a = -b ↔ a = b ∧ a = 0 := by
    constructor
    · intro h
      exact ⟨by linarith, by linarith⟩
    · rintro ⟨rfl, rfl⟩
      norm_num
  cases s <;> cases t
  · simp
  · simpa using hopposite ha hb
  · simpa [neg_eq_iff_eq_neg] using hopposite ha hb
  · simp

namespace Fraction

def value (x : Fraction) : ℚ := x.num / x.den

variable {x y : Fraction}

theorem value_nonneg (x : Fraction) : 0 ≤ x.value := by
  unfold value
  positivity

theorem value_pos (hnum : 0 < x.num) (hden : 0 < x.den) : 0 < x.value := by
  unfold value
  positivity

@[simp] theorem value_ofNat (n : ℕ) : (ofNat n).value = n := by simp [value, ofNat]

theorem value_add (hx : 0 < x.den) (hy : 0 < y.den) : (x.add y).value = x.value + y.value := by
  simp only [value, add]
  push_cast
  field_simp

@[simp] theorem value_mul : (x.mul y).value = x.value * y.value := by
  simp only [value, mul]
  push_cast
  exact mul_div_mul_comm _ _ _ _

@[simp] theorem value_div : (x.div y).value = x.value / y.value := by
  simp only [value, div]
  push_cast
  exact (div_div_div_eq _ _ _ _).symm

@[simp] theorem value_power (base : ℕ) (e : ℤ) : (power base e).value = (base : ℚ) ^ e := by
  cases e with
  | ofNat n => simp [value, power]
  | negSucc n => simp [value, power, zpow_negSucc]

@[simp] theorem value_scaled (n base : ℕ) (e : ℤ) :
    (scaled n base e).value = n * (base : ℚ) ^ e := by
  rw [scaled, value_mul, value_ofNat, value_power]

theorem power_den_pos {base : ℕ} (hbase : 0 < base) (e : ℤ) : 0 < (power base e).den := by
  cases e with
  | ofNat n => exact Nat.one_pos
  | negSucc n => exact Nat.pow_pos hbase

theorem power_num_pos {base : ℕ} (hbase : 0 < base) (e : ℤ) : 0 < (power base e).num := by
  cases e with
  | ofNat n => exact Nat.pow_pos hbase
  | negSucc n => exact Nat.one_pos

theorem scaled_den_pos (n : ℕ) {base : ℕ} (hbase : 0 < base) (e : ℤ) :
    0 < (scaled n base e).den := by
  show 0 < 1 * (power base e).den
  rw [Nat.one_mul]
  exact power_den_pos hbase e

theorem add_den_pos (hx : 0 < x.den) (hy : 0 < y.den) : 0 < (x.add y).den := Nat.mul_pos hx hy

theorem mul_den_pos (hx : 0 < x.den) (hy : 0 < y.den) : 0 < (x.mul y).den := Nat.mul_pos hx hy

theorem div_den_pos (hx : 0 < x.den) (hy : 0 < y.num) : 0 < (x.div y).den := Nat.mul_pos hx hy

theorem le_iff (hx : 0 < x.den) (hy : 0 < y.den) : x.le y ↔ x.value ≤ y.value := by
  have hx' : (0 : ℚ) < x.den := by exact_mod_cast hx
  have hy' : (0 : ℚ) < y.den := by exact_mod_cast hy
  rw [value, value, div_le_div_iff₀ hx' hy']
  simp only [le, decide_eq_true_eq]
  norm_cast

theorem lt_iff (hx : 0 < x.den) (hy : 0 < y.den) : x.lt y ↔ x.value < y.value := by
  have hx' : (0 : ℚ) < x.den := by exact_mod_cast hx
  have hy' : (0 : ℚ) < y.den := by exact_mod_cast hy
  rw [value, value, div_lt_div_iff₀ hx' hy']
  simp only [lt, decide_eq_true_eq]
  norm_cast

theorem eq_iff (hx : 0 < x.den) (hy : 0 < y.den) : x.eq y ↔ x.value = y.value := by
  have hx' : (x.den : ℚ) ≠ 0 := by exact_mod_cast hx.ne'
  have hy' : (y.den : ℚ) ≠ 0 := by exact_mod_cast hy.ne'
  rw [value, value, div_eq_div_iff hx' hy']
  simp only [eq, beq_iff_eq]
  norm_cast

/-! ### Rounding -/

theorem floor_eq (x : Fraction) : x.floor = ⌊x.value⌋₊ := (Nat.floor_div_eq_div x.num x.den).symm

theorem roundHalfUp_eq (hx : 0 < x.den) : x.roundHalfUp = ⌊x.value + 1 / 2⌋₊ := by
  have hx' : (x.den : ℚ) ≠ 0 := by exact_mod_cast hx.ne'
  have hvalue : x.value + 1 / 2 = ((2 * x.num + x.den : ℕ) : ℚ) / ((2 * x.den : ℕ) : ℚ) := by
    rw [value]
    push_cast
    field_simp
  rw [hvalue, Nat.floor_div_eq_div, roundHalfUp]

/-- Rounding to the nearest goes at most one half away, and exactly so far only to an even number.
-/
theorem roundHalfEven_spec (hx : 0 < x.den) :
    |(x.roundHalfEven : ℚ) - x.value| ≤ 1 / 2 ∧
      (|(x.roundHalfEven : ℚ) - x.value| = 1 / 2 → x.roundHalfEven % 2 = 0) := by
  have hx' : (0 : ℚ) < x.den := by exact_mod_cast hx
  have hparts : x.value = (x.num / x.den : ℕ) + ((x.num % x.den : ℕ) : ℚ) / x.den := by
    have hnum : (x.num : ℚ) = (x.num / x.den : ℕ) * x.den + (x.num % x.den : ℕ) := by
      exact_mod_cast (Nat.div_add_mod' x.num x.den).symm
    rw [value]
    field_simp
    linarith
  have hr : x.num % x.den < x.den := Nat.mod_lt _ hx
  unfold roundHalfEven
  simp only [hparts]
  generalize x.num / x.den = q
  generalize x.num % x.den = r at hr ⊢
  split
  · next h =>
    have hup : |(q : ℚ) - (q + (r : ℚ) / x.den)| = r / x.den := by
      rw [show (q : ℚ) - (q + (r : ℚ) / x.den) = -(r / x.den) by ring, abs_neg, abs_of_nonneg]
      positivity
    rw [hup]
    simp only [Bool.or_eq_true, decide_eq_true_eq, Bool.and_eq_true, beq_iff_eq] at h
    constructor
    · rw [div_le_div_iff₀ hx' (by norm_num)]
      have hle : r * 2 ≤ 1 * x.den := by omega
      exact_mod_cast hle
    · intro hhalf
      rw [div_eq_div_iff hx'.ne' (by norm_num)] at hhalf
      have heq : r * 2 = 1 * x.den := by exact_mod_cast hhalf
      omega
  · next h =>
    have hdown : |((q + 1 : ℕ) : ℚ) - (q + (r : ℚ) / x.den)| = ((x.den - r : ℕ) : ℚ) / x.den := by
      rw [Nat.cast_sub hr.le, sub_div, div_self hx'.ne']
      push_cast
      rw [show (q : ℚ) + 1 - (q + r / x.den) = 1 - r / x.den by ring, abs_of_nonneg]
      rw [sub_nonneg, div_le_one hx']
      exact_mod_cast hr.le
    rw [hdown]
    simp only [Bool.or_eq_true, decide_eq_true_eq, Bool.and_eq_true, beq_iff_eq] at h
    constructor
    · rw [div_le_div_iff₀ hx' (by norm_num)]
      have hle : (x.den - r) * 2 ≤ 1 * x.den := by omega
      exact_mod_cast hle
    · intro hhalf
      rw [div_eq_div_iff hx'.ne' (by norm_num)] at hhalf
      have heq : (x.den - r) * 2 = 1 * x.den := by exact_mod_cast hhalf
      omega

theorem signed_whole_eq_some (hx : 0 < x.den) (negative : Bool) {i : ℤ} :
    (if x.num % x.den = 0 then
      some (if negative then -((x.num / x.den : ℕ) : ℤ) else ((x.num / x.den : ℕ) : ℤ))
    else none) = some i ↔ signOf negative * x.value = i := by
  have hx' : (x.den : ℚ) ≠ 0 := by exact_mod_cast hx.ne'
  have hvalue : signOf negative * x.value = i ↔
      (if negative then -1 else 1) * (x.num : ℤ) = i * (x.den : ℤ) := by
    rw [value, ← mul_div_assoc, div_eq_iff hx', signOf]
    norm_cast
  rw [hvalue]
  generalize x.num = num
  generalize x.den = den at hx
  constructor
  · intro h
    split at h
    · next hwhole =>
      obtain ⟨n, rfl⟩ := Nat.dvd_of_mod_eq_zero hwhole
      rw [Nat.mul_div_cancel_left n hx] at h
      obtain rfl := Option.some.inj h
      push_cast
      split <;> ring
    · cases h
  · intro h
    have hnum : num = i.natAbs * den := by
      have habs := congrArg Int.natAbs h
      rw [Int.natAbs_mul, Int.natAbs_mul, Int.natAbs_natCast, Int.natAbs_natCast] at habs
      have hone : (if negative then -1 else 1 : ℤ).natAbs = 1 := by cases negative <;> rfl
      rwa [hone, one_mul] at habs
    subst hnum
    rw [Nat.mul_mod_left, if_pos rfl, Nat.mul_div_cancel _ hx, Option.some.injEq]
    have hden : (den : ℤ) ≠ 0 := by exact_mod_cast hx.ne'
    push_cast at h ⊢
    cases negative with
    | false => exact mul_right_cancel₀ hden (by simpa using h)
    | true => exact mul_right_cancel₀ hden (by simpa using h)

end Fraction

namespace Decimal

theorem magnitude_den_pos (d : Decimal) : 0 < d.magnitude.den := Nat.pow_pos (by decide)

def value (d : Decimal) : ℚ := signOf d.negative * d.magnitude.value

theorem magnitude_value (d : Decimal) : d.magnitude.value = d.mantissa / 10 ^ d.scale := by
  simp [magnitude, Fraction.value]

theorem magnitude_eq_zero_iff {d : Decimal} : d.magnitude.value = 0 ↔ d.mantissa = 0 := by
  rw [magnitude_value, div_eq_zero_iff]
  simp

theorem sameValue_iff {a b : Decimal} : a.sameValue b ↔ a.value = b.value := by
  rw [sameValue, Bool.and_eq_true, Bool.or_eq_true, beq_iff_eq, beq_iff_eq,
    Fraction.eq_iff a.magnitude_den_pos b.magnitude_den_pos, value, value,
    signOf_mul_inj a.magnitude.value_nonneg b.magnitude.value_nonneg, magnitude_eq_zero_iff]
  tauto

theorem toInt?_eq_some {d : Decimal} {i : ℤ} : d.toInt? = some i ↔ d.value = i :=
  Fraction.signed_whole_eq_some d.magnitude_den_pos d.negative

end Decimal

namespace Binary64

theorem magnitude_den_pos (x : Binary64) : 0 < x.magnitude.den :=
  Fraction.scaled_den_pos x.significand (by decide) x.exponent

def value (x : Binary64) : ℚ := signOf x.negative * x.magnitude.value

theorem magnitude_value (x : Binary64) :
    x.magnitude.value = x.significand * (2 : ℚ) ^ x.exponent := by
  simp [magnitude]

theorem toInt?_eq_some {x : Binary64} {i : ℤ} : x.toInt? = some i ↔ x.value = i :=
  Fraction.signed_whole_eq_some x.magnitude_den_pos x.negative

end Binary64

end Fieldwise
