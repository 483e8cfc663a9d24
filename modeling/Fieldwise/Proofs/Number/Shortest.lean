import Fieldwise.Proofs.Number.Rounding
import Fieldwise.Proofs.Text.Numerals
import Mathlib.Data.List.TakeWhile

/-!
The shortest digits of a floating-point number. On a grid of decimal numbers the two points around
the number stand for all others, since what a number attracts is an interval. So the search goes
past no grid with a point that is attracted, and at most a part in `10 ^ 17` is lost where there is
none.
-/

namespace Fieldwise

namespace Text

theorem lt_pow_length_numeral (n : ℕ) : n < 10 ^ (numeral n).length :=
  (Nat.length_toDigits_le_iff (by decide) (List.length_pos_of_ne_nil (numeral_ne_nil n))).mp le_rfl

theorem pow_length_numeral_le {n : ℕ} (hn : 0 < n) : 10 ^ ((numeral n).length - 1) ≤ n := by
  by_contra hlt
  rcases Nat.eq_zero_or_pos ((numeral n).length - 1) with hone | hmore
  · rw [hone, pow_zero] at hlt
    omega
  · have hle := length_numeral_le hmore (Nat.not_le.mp hlt)
    omega

end Text

namespace Binary64

variable {x : Binary64} {q : ℚ}

theorem magnitude_num_pos (hx : 0 < x.significand) : 0 < x.magnitude.num :=
  Nat.mul_pos hx (Fraction.power_num_pos two_pos x.exponent)

theorem zpow_length_numeral {n : ℕ} (hn : 0 < n) :
    (10 : ℚ) ^ (((Text.numeral n).length : ℤ) - 1) ≤ n ∧
      (n : ℚ) < (10 : ℚ) ^ ((Text.numeral n).length : ℤ) := by
  have hlength := List.length_pos_of_ne_nil (Text.numeral_ne_nil n)
  have hexponent : ((Text.numeral n).length : ℤ) - 1 = ((Text.numeral n).length - 1 : ℕ) := by omega
  rw [hexponent, zpow_natCast, zpow_natCast]
  exact ⟨by exact_mod_cast Text.pow_length_numeral_le hn,
    by exact_mod_cast Text.lt_pow_length_numeral n⟩

theorem leadingPlace_spec {v : Fraction} (hnum : 0 < v.num) (hden : 0 < v.den) :
    (10 : ℚ) ^ leadingPlace v ≤ v.value ∧ v.value < (10 : ℚ) ^ (leadingPlace v + 1) := by
  obtain ⟨hnumLow, hnumHigh⟩ := zpow_length_numeral hnum
  obtain ⟨hdenLow, hdenHigh⟩ := zpow_length_numeral hden
  have hten : (10 : ℚ) ≠ 0 := by norm_num
  have hdenPos : (0 : ℚ) < v.den := by exact_mod_cast hden
  set estimate : ℤ := ((Text.numeral v.num).length : ℤ) - (Text.numeral v.den).length with hestimate
  have hlow : (10 : ℚ) ^ (estimate - 1) ≤ v.value := by
    rw [Fraction.value, le_div_iff₀ hdenPos]
    calc (10 : ℚ) ^ (estimate - 1) * v.den
        ≤ 10 ^ (estimate - 1) * 10 ^ ((Text.numeral v.den).length : ℤ) :=
          mul_le_mul_of_nonneg_left hdenHigh.le (ten_zpow_pos _).le
      _ = 10 ^ (((Text.numeral v.num).length : ℤ) - 1) := by
          rw [← zpow_add₀ hten, hestimate]
          congr 1
          omega
      _ ≤ v.num := hnumLow
  have hhigh : v.value < (10 : ℚ) ^ (estimate + 1) := by
    rw [Fraction.value, div_lt_iff₀ hdenPos]
    calc (v.num : ℚ) < 10 ^ ((Text.numeral v.num).length : ℤ) := hnumHigh
      _ = 10 ^ (estimate + 1) * 10 ^ (((Text.numeral v.den).length : ℤ) - 1) := by
          rw [← zpow_add₀ hten, hestimate]
          congr 1
          omega
      _ ≤ 10 ^ (estimate + 1) * v.den := mul_le_mul_of_nonneg_left hdenLow (ten_zpow_pos _).le
  have hpower : (Fraction.power 10 estimate).le v ↔ (10 : ℚ) ^ estimate ≤ v.value := by
    rw [Fraction.le_iff (Fraction.power_den_pos (by decide) _) hden, Fraction.value_power]
    norm_cast
  have hplace : leadingPlace v = if (Fraction.power 10 estimate).le v then estimate
    else estimate - 1 := rfl
  rw [hplace]
  split
  · next hle => exact ⟨hpower.mp hle, hhigh⟩
  · next hlt =>
    rw [sub_add_cancel]
    exact ⟨hlow, not_le.mp fun hle => hlt (hpower.mpr hle)⟩

/-! ### Grids -/

/-- The last point of a grid that is not above the number. -/
def below (x : Binary64) (k : ℤ) : ℕ := ⌊x.magnitude.value / 10 ^ k⌋₊

theorem below_le (x : Binary64) (k : ℤ) : x.below k * 10 ^ k ≤ x.magnitude.value := by
  have hpos := ten_zpow_pos k
  rw [← le_div_iff₀ hpos]
  exact Nat.floor_le (div_nonneg x.magnitude.value_nonneg hpos.le)

theorem lt_below_succ (x : Binary64) (k : ℤ) : x.magnitude.value < (x.below k + 1 : ℕ) * 10 ^ k := by
  have hpos := ten_zpow_pos k
  rw [← div_lt_iff₀ hpos]
  push_cast
  exact Nat.lt_floor_add_one _

/-- If any point of a grid is attracted, then one of the two around the number is. -/
theorem Attracts.around {k : ℤ} {n : ℕ} (h : x.Attracts (n * 10 ^ k)) :
    x.Attracts (x.below k * 10 ^ k) ∨ x.Attracts ((x.below k + 1 : ℕ) * 10 ^ k) := by
  have hpos := ten_zpow_pos k
  rcases le_or_gt n (x.below k) with hle | hgt
  · left
    refine h.between x.attracts_magnitude ?_ (x.below_le k)
    exact mul_le_mul_of_nonneg_right (by exact_mod_cast hle) hpos.le
  · right
    refine x.attracts_magnitude.between h (x.lt_below_succ k).le ?_
    exact mul_le_mul_of_nonneg_right (by exact_mod_cast hgt) hpos.le

theorem gridPoint?_spec (halfway : Halfway) (hx : 0 < x.significand) (k : ℤ) :
    (∀ n, gridPoint? halfway x k = some n →
      x.Attracts (n * 10 ^ k) ∧ x.below k ≤ n ∧ n ≤ x.below k + 1) ∧
    (gridPoint? halfway x k = none → ∀ n : ℕ, ¬x.Attracts (n * 10 ^ k)) := by
  have hfloor : (x.magnitude.div (Fraction.power 10 k)).floor = x.below k := by
    rw [Fraction.floor_eq, Fraction.value_div, Fraction.value_power, below]
    norm_cast
  have hattracts (n : ℕ) : x.attracts (Fraction.scaled n 10 k) ↔ x.Attracts (n * 10 ^ k) := by
    rw [attracts_iff hx (Fraction.scaled_den_pos n (by decide) k), Fraction.value_scaled]
    norm_cast
  unfold gridPoint?
  simp only [hfloor]
  cases hbelow : x.attracts (Fraction.scaled (x.below k) 10 k) with
  | false =>
    cases habove : x.attracts (Fraction.scaled (x.below k + 1) 10 k) with
    | false =>
      refine ⟨fun n hn => (by cases hn), fun _ n hn => ?_⟩
      rcases hn.around with h | h
      · rw [(hattracts _).mpr h] at hbelow
        cases hbelow
      · rw [(hattracts _).mpr h] at habove
        cases habove
    | true =>
      refine ⟨fun n hn => ?_, fun hnone => by cases hnone⟩
      obtain rfl := Option.some.inj hn
      exact ⟨(hattracts _).mp habove, by omega, by omega⟩
  | true =>
    cases habove : x.attracts (Fraction.scaled (x.below k + 1) 10 k) with
    | false =>
      refine ⟨fun n hn => ?_, fun hnone => by cases hnone⟩
      obtain rfl := Option.some.inj hn
      exact ⟨(hattracts _).mp hbelow, by omega, by omega⟩
    | true =>
      -- Whichever of the two is nearer, both are attracted.
      have hboth : ∀ n, n = x.below k ∨ n = x.below k + 1 →
          x.Attracts (n * 10 ^ k) ∧ x.below k ≤ n ∧ n ≤ x.below k + 1 := by
        rintro n (rfl | rfl)
        · exact ⟨(hattracts _).mp hbelow, by omega, by omega⟩
        · exact ⟨(hattracts _).mp habove, by omega, by omega⟩
      dsimp only
      constructor
      · intro n hn
        apply hboth
        split at hn
        · exact .inl (Option.some.inj hn).symm
        · split at hn
          · exact .inr (Option.some.inj hn).symm
          · split at hn
            · exact .inl (Option.some.inj hn).symm
            · exact .inr (Option.some.inj hn).symm
      · intro hnone
        split at hnone
        · cases hnone
        · split at hnone
          · cases hnone
          · split at hnone <;> cases hnone

/-! ### The search -/

/-- What the search from a grid on through finer ones comes to: a point of the first grid with one
that is attracted, or else the last point below the number on a grid `steps` further. -/
structure Found (x : Binary64) (first : ℤ) (steps : ℕ) (n : ℕ) (k : ℤ) : Prop where
  le_first : k ≤ first
  last_le : first - steps ≤ k
  below_le : x.below k ≤ n
  le_above : n ≤ x.below k + 1
  le_high : n * 10 ^ k ≤ x.high
  attracted : first - steps < k → x.Attracts (n * 10 ^ k)
  passed : ∀ j, k < j → j ≤ first → ∀ m : ℕ, ¬x.Attracts (m * 10 ^ j)

theorem found_searchGrids (halfway : Halfway) (hx : 0 < x.significand) (steps : ℕ) (first : ℤ) :
    Found x first steps (searchGrids halfway x steps first).1
      (searchGrids halfway x steps first).2 := by
  induction steps generalizing first with
  | zero =>
    have hfloor : searchGrids halfway x 0 first = (x.below first, first) := by
      rw [searchGrids, Fraction.floor_eq, Fraction.value_div, Fraction.value_power, below]
      norm_cast
    rw [hfloor]
    show Found x first 0 (x.below first) first
    exact ⟨le_rfl, by simp, le_rfl, by omega,
      (x.below_le first).trans x.magnitude_lt_high.le, fun h => by simp at h,
      fun j hlt hle => absurd hle (by omega)⟩
  | succ steps ih =>
    obtain ⟨hsome, hnone⟩ := gridPoint?_spec halfway hx first
    rw [searchGrids]
    cases hpoint : gridPoint? halfway x first with
    | some n =>
      obtain ⟨hattracted, hlow, hhigh⟩ := hsome n hpoint
      show Found x first (steps + 1) n first
      exact ⟨le_rfl, by omega, hlow, hhigh, hattracted.le.2, fun _ => hattracted,
        fun j hlt hle => absurd hle (by omega)⟩
    | none =>
      have hfound := ih (first - 1)
      show Found x first (steps + 1) (searchGrids halfway x steps (first - 1)).1
        (searchGrids halfway x steps (first - 1)).2
      refine ⟨?_, ?_, hfound.below_le, hfound.le_above, hfound.le_high, ?_, ?_⟩
      · have hle := hfound.le_first
        omega
      · have hle := hfound.last_le
        push_cast
        omega
      · intro hlt
        exact hfound.attracted (by push_cast at hlt; omega)
      · intro j hlt hle
        rcases Int.lt_or_eq_of_le hle with hbefore | rfl
        · exact hfound.passed j hlt (by omega)
        · exact hnone hpoint

namespace Found

variable {steps n : ℕ} {k : ℤ}

/-- What is found has a digit at the leading place. -/
theorem pow_le (h : Found x (leadingPlace x.magnitude) steps n k) (hx : 0 < x.significand) :
    10 ^ (leadingPlace x.magnitude - k).toNat ≤ n := by
  obtain ⟨hlow, -⟩ := leadingPlace_spec (magnitude_num_pos hx) x.magnitude_den_pos
  have hpos := ten_zpow_pos k
  have hle := h.le_first
  refine le_trans (Nat.le_floor ?_) h.below_le
  rw [le_div_iff₀ hpos, Nat.cast_pow, Nat.cast_ofNat, ← zpow_natCast, ← zpow_add₀ (by norm_num)]
  have hexponent : ((leadingPlace x.magnitude - k).toNat : ℤ) + k = leadingPlace x.magnitude := by
    omega
  rw [hexponent]
  exact hlow

theorem pos (h : Found x (leadingPlace x.magnitude) steps n k) (hx : 0 < x.significand) : 0 < n :=
  lt_of_lt_of_le (Nat.pow_pos (by decide)) (h.pow_le hx)

theorem le_pow (h : Found x (leadingPlace x.magnitude) steps n k) (hx : 0 < x.significand) :
    n ≤ 10 ^ (steps + 1) := by
  obtain ⟨-, hhigh⟩ := leadingPlace_spec (magnitude_num_pos hx) x.magnitude_den_pos
  have hpos := ten_zpow_pos k
  have hlast := h.last_le
  refine le_trans h.le_above (Nat.succ_le_of_lt ?_)
  rw [below, Nat.floor_lt (div_nonneg x.magnitude.value_nonneg hpos.le), div_lt_iff₀ hpos,
    Nat.cast_pow, Nat.cast_ofNat, ← zpow_natCast, ← zpow_add₀ (by norm_num)]
  refine hhigh.trans_le (zpow_le_zpow_right₀ (by norm_num) ?_)
  push_cast
  omega

end Found

/-! ### Digits -/

theorem eq_stripZeros_append (digits : List Char) :
    ∃ zeros, digits = stripZeros digits ++ List.replicate zeros '0' := by
  have hzeros : digits.reverse.takeWhile (· = '0') =
      List.replicate (digits.reverse.takeWhile (· = '0')).length '0' :=
    List.eq_replicate_of_mem fun c hc => by simpa using List.mem_takeWhile_imp hc
  refine ⟨(digits.reverse.takeWhile (· = '0')).length, ?_⟩
  rw [← List.reverse_replicate, ← hzeros, stripZeros, ← List.reverse_append,
    List.takeWhile_append_dropWhile, List.reverse_reverse]

/-- The number that digits say, where `place` is the exponent of the first. -/
def placedValue (digits : List Char) (place : ℤ) : ℚ :=
  Text.numeralValue digits * 10 ^ (place + 1 - digits.length)

/-- The decimal number that stands for a floating-point number in documents. -/
def shortestValue (x : Binary64) : ℚ :=
  placedValue (x.shortest .toEven).1 (x.shortest .toEven).2

/-- Digits, none of them superfluous, with the place of the first. -/
structure Placed (digits : List Char) (place : ℤ) : Prop where
  decimal : ∀ c ∈ digits, c.isDigit
  nonempty : digits ≠ []
  length_le : digits.length ≤ 19
  pow_le : place = 0 ∨ 10 ^ place ≤ placedValue digits place

theorem placed_zero : Placed ['0'] 0 where
  decimal := List.all_eq_true.mp rfl
  nonempty := by decide
  length_le := by decide
  pow_le := .inl rfl

theorem shortest_zero (halfway : Halfway) (hx : x.significand = 0) :
    x.shortest halfway = (['0'], 0) :=
  if_pos (beq_iff_eq.mpr hx)

theorem shortest_spec (halfway : Halfway) (hx : 0 < x.significand) : ∃ n k,
    Found x (leadingPlace x.magnitude) 17 n k ∧
      Placed (x.shortest halfway).1 (x.shortest halfway).2 ∧
      placedValue (x.shortest halfway).1 (x.shortest halfway).2 = n * 10 ^ k ∧
      leadingPlace x.magnitude ≤ (x.shortest halfway).2 := by
  have hfound := found_searchGrids halfway hx 17 (leadingPlace x.magnitude)
  have hshortest : x.shortest halfway =
      (stripZeros (Text.numeral (searchGrids halfway x 17 (leadingPlace x.magnitude)).1),
        (searchGrids halfway x 17 (leadingPlace x.magnitude)).2 +
          (Text.numeral (searchGrids halfway x 17 (leadingPlace x.magnitude)).1).length - 1) :=
    if_neg (by simpa [isZero] using hx.ne')
  rw [hshortest]
  generalize (searchGrids halfway x 17 (leadingPlace x.magnitude)).1 = n at hfound ⊢
  generalize (searchGrids halfway x 17 (leadingPlace x.magnitude)).2 = k at hfound ⊢
  dsimp only
  have hn := hfound.pos hx
  have hten : (10 : ℚ) ≠ 0 := by norm_num
  obtain ⟨zeros, hzeros⟩ := eq_stripZeros_append (Text.numeral n)
  have hlength : (Text.numeral n).length = (stripZeros (Text.numeral n)).length + zeros := by
    conv_lhs => rw [hzeros]
    simp
  have hnumber : n = Text.numeralValue (stripZeros (Text.numeral n)) * 10 ^ zeros := by
    conv_lhs => rw [← Text.numeralValue_numeral n, hzeros, Text.numeralValue_append_zeros]
  have hvalue : placedValue (stripZeros (Text.numeral n)) (k + (Text.numeral n).length - 1) =
      n * 10 ^ k := by
    rw [placedValue, hlength]
    conv_rhs => rw [hnumber]
    push_cast
    rw [mul_assoc, ← zpow_natCast, ← zpow_add₀ hten]
    congr 2
    omega
  refine ⟨n, k, hfound, ⟨?_, ?_, ?_, .inr ?_⟩, hvalue, ?_⟩
  · intro c hc
    refine Text.isDigit_of_mem_numeral (n := n) ?_
    rw [hzeros]
    exact List.mem_append_left _ hc
  · intro hnil
    rw [hnil] at hnumber
    simp [Text.numeralValue] at hnumber
    omega
  · have hle : (Text.numeral n).length ≤ 19 := by
      refine Text.length_numeral_le (by decide) ?_
      exact lt_of_le_of_lt (hfound.le_pow hx) (by norm_num)
    omega
  · obtain ⟨hlow, -⟩ := zpow_length_numeral hn
    rw [hvalue]
    have hsplit : k + ((Text.numeral n).length : ℤ) - 1 = ((Text.numeral n).length - 1) + k := by
      omega
    rw [hsplit, zpow_add₀ hten]
    exact mul_le_mul_of_nonneg_right hlow (ten_zpow_pos k).le
  · have hlong : (leadingPlace x.magnitude - k).toNat < (Text.numeral n).length :=
      (Nat.pow_lt_pow_iff_right (by decide)).mp
        ((hfound.pow_le hx).trans_lt (Text.lt_pow_length_numeral n))
    have hle := hfound.le_first
    omega

theorem placed_shortest (halfway : Halfway) (x : Binary64) :
    Placed (x.shortest halfway).1 (x.shortest halfway).2 := by
  rcases Nat.eq_zero_or_pos x.significand with hx | hx
  · rw [shortest_zero halfway hx]
    exact placed_zero
  · obtain ⟨-, -, -, hplaced, -⟩ := shortest_spec halfway hx
    exact hplaced

/-- Numbers of 96 bits have shortest digits that are not above them. -/
theorem shortestValue_lt (h : x.magnitude.value < 2 ^ 96) : x.shortestValue < 2 ^ 96 := by
  rcases Nat.eq_zero_or_pos x.significand with hx | hx
  · rw [shortestValue, shortest_zero .toEven hx]
    norm_num [placedValue, Text.numeralValue, Text.digitValue]
  · obtain ⟨n, k, hfound, -, hvalue, -⟩ := shortest_spec .toEven hx
    rw [shortestValue, hvalue]
    refine hfound.le_high.trans_lt ?_
    rw [magnitude_value_eq, ulp] at h
    rw [high, ulp]
    rcases lt_or_ge x.exponent 0 with hneg | hnonneg
    · have hbelow : (x.significand : ℚ) + 1 ≤ 2 ^ 53 := by exact_mod_cast x.canonical.1
      calc ((x.significand : ℚ) + 1 / 2) * 2 ^ x.exponent
          ≤ x.significand + 1 / 2 := mul_le_of_le_one_right (by positivity)
            (zpow_le_one_of_nonpos₀ one_le_two hneg.le)
        _ < 2 ^ 96 := by linarith
    · obtain ⟨e, he⟩ := Int.eq_ofNat_of_zero_le hnonneg
      rw [he, zpow_natCast] at h ⊢
      have hroom : x.significand * 2 ^ e < 2 ^ 96 := by exact_mod_cast h
      have hexponent : e < 96 := by
        refine (Nat.pow_lt_pow_iff_right (show 1 < 2 by decide)).mp ?_
        exact lt_of_le_of_lt (Nat.le_mul_of_pos_left _ hx) hroom
      have hnext : (x.significand + 1) * 2 ^ e ≤ 2 ^ 96 := by
        rw [← Nat.sub_add_cancel hexponent.le, pow_add] at hroom ⊢
        exact Nat.mul_le_mul_right _ (Nat.lt_of_mul_lt_mul_right hroom)
      have hnext' : ((x.significand : ℚ) + 1) * 2 ^ e ≤ 2 ^ 96 := by exact_mod_cast hnext
      have hpos : (0 : ℚ) < 2 ^ e := by positivity
      linarith

/-- Nor do they lose the leading place. -/
theorem le_place {p : ℤ} (hx : 0 < x.significand) (h : (10 : ℚ) ^ p ≤ x.magnitude.value) :
    p ≤ (x.shortest .toEven).2 := by
  obtain ⟨-, -, -, -, -, hplace⟩ := shortest_spec .toEven hx
  obtain ⟨-, hhigh⟩ := leadingPlace_spec (magnitude_num_pos hx) x.magnitude_den_pos
  have hlt := (zpow_lt_zpow_iff_right₀ (show (1 : ℚ) < 10 by norm_num)).mp (h.trans_lt hhigh)
  omega

/-! ### Fifteen digits -/

/-- The reach of a number is at most one ulp in all. -/
theorem Attracts.close {a b : ℚ} (ha : x.Attracts a) (hb : x.Attracts b) : |a - b| ≤ x.ulp := by
  have hreach : x.reachDown * x.ulp ≤ 1 / 2 * x.ulp :=
    mul_le_mul_of_nonneg_right x.reachDown_le.2 x.ulp_pos.le
  have hwidth : x.high - x.low ≤ x.ulp := by
    rw [high, low]
    linarith
  obtain ⟨haLow, haHigh⟩ := ha.le
  obtain ⟨hbLow, hbHigh⟩ := hb.le
  rw [abs_le]
  constructor <;> linarith

/-- Values that are not tiny are attracted by normal numbers only. -/
theorem Attracts.normal (h : x.Attracts q) (hq : (10 : ℚ) ^ (-28 : ℤ) ≤ q) :
    2 ^ 52 ≤ x.significand := by
  obtain ⟨hlt, -, -, hnormal⟩ := x.canonical
  refine hnormal.resolve_right fun hexponent => ?_
  have hbelow : (x.significand : ℚ) + 1 / 2 ≤ 2 ^ 53 := by
    have hcast : (x.significand : ℚ) + 1 ≤ 2 ^ 53 := by exact_mod_cast hlt
    linarith
  have hhigh : x.high ≤ 2 ^ 53 * 2 ^ (-1074 : ℤ) := by
    rw [high, ulp, hexponent]
    exact mul_le_mul_of_nonneg_right hbelow (zpow_pos two_pos _).le
  have hsmall : (2 : ℚ) ^ 53 * 2 ^ (-1074 : ℤ) < 10 ^ (-28 : ℤ) := by
    have hpower : (2 : ℚ) ^ 53 * 2 ^ (-1074 : ℤ) ≤ 2 ^ (-100 : ℤ) := by
      rw [← zpow_natCast, ← zpow_add₀ two_ne_zero]
      exact zpow_le_zpow_right₀ one_le_two (by decide)
    exact hpower.trans_lt (by norm_num)
  have hle := h.le.2
  linarith

theorem eq_of_close {a b : ℕ} {unit : ℚ} (hunit : 0 < unit) (h : |a * unit - b * unit| < unit) :
    a = b := by
  rw [← sub_mul, abs_mul, abs_of_pos hunit, mul_lt_iff_lt_one_left hunit, abs_lt] at h
  have hlow : (b : ℚ) < (a + 1 : ℕ) := by
    push_cast
    linarith
  have hhigh : (a : ℚ) < (b + 1 : ℕ) := by
    push_cast
    linarith
  have hlow' : b < a + 1 := by exact_mod_cast hlow
  have hhigh' : a < b + 1 := by exact_mod_cast hhigh
  omega

theorem exists_on_finer_grid (n : ℕ) {k fine : ℤ} (hfine : fine ≤ k) :
    ∃ m : ℕ, (n : ℚ) * 10 ^ k = m * 10 ^ fine := by
  refine ⟨n * 10 ^ (k - fine).toNat, ?_⟩
  push_cast
  rw [mul_assoc, ← zpow_natCast, ← zpow_add₀ (by norm_num)]
  congr 2
  omega

/-- What attracts a number of 15 digits is normal, has an ulp of less than a quarter of the last
digit, and is not much larger. -/
theorem Attracts.of_fifteen_digits {mantissa : ℕ} {unit : ℚ} (h : x.Attracts (mantissa * unit))
    (hpos : 0 < mantissa) (hdigits : mantissa < 10 ^ 15) (hunit : (10 : ℚ) ^ (-28 : ℤ) ≤ unit) :
    2 ^ 52 ≤ x.significand ∧ 4 * x.ulp < unit ∧ x.magnitude.value < 10 ^ 16 * unit := by
  have hunitPos : 0 < unit := (ten_zpow_pos _).trans_le hunit
  have hone : (1 : ℚ) ≤ mantissa := by exact_mod_cast hpos
  have hnormal : 2 ^ 52 ≤ x.significand :=
    h.normal (hunit.trans (le_mul_of_one_le_left hunitPos.le hone))
  have hmantissa : (mantissa : ℚ) * unit < 10 ^ 15 * unit :=
    mul_lt_mul_of_pos_right (by exact_mod_cast hdigits) hunitPos
  have hulp := mul_ulp_le hnormal
  have habove : x.magnitude.value ≤ mantissa * unit + 1 / 2 * x.ulp := by
    have hreach : x.reachDown * x.ulp ≤ 1 / 2 * x.ulp :=
      mul_le_mul_of_nonneg_right x.reachDown_le.2 x.ulp_pos.le
    have hlow := h.le.1
    rw [low] at hlow
    rw [magnitude_value_eq]
    linarith
  exact ⟨hnormal, by linarith, by linarith⟩

/-- A number of 15 digits comes back from the floating-point number that attracts it: on the grid of
its last place no other point is near enough. -/
theorem shortestValue_eq {mantissa scale : ℕ} (hpos : 0 < mantissa) (hdigits : mantissa < 10 ^ 15)
    (hscale : scale ≤ 22) (h : x.Attracts (mantissa / 10 ^ scale)) :
    x.shortestValue = mantissa / 10 ^ scale := by
  have hten : (10 : ℚ) ≠ 0 := by norm_num
  have hq : (mantissa : ℚ) / 10 ^ scale = mantissa * 10 ^ (-scale : ℤ) := by
    rw [zpow_neg, zpow_natCast, div_eq_mul_inv]
  rw [hq] at h ⊢
  obtain ⟨hnormal, hquarter, hsize⟩ := h.of_fifteen_digits hpos hdigits
    (zpow_le_zpow_right₀ (by norm_num) (by omega))
  have hx : 0 < x.significand := lt_of_lt_of_le (by norm_num) hnormal
  obtain ⟨hlow, hhigh⟩ := leadingPlace_spec (magnitude_num_pos hx) x.magnitude_den_pos
  obtain ⟨n, k, hfound, -, hvalue, -⟩ := shortest_spec .toEven hx
  have hplace : leadingPlace x.magnitude < 16 - scale := by
    refine (zpow_lt_zpow_iff_right₀ (show (1 : ℚ) < 10 by norm_num)).mp ?_
    calc (10 : ℚ) ^ leadingPlace x.magnitude ≤ x.magnitude.value := hlow
      _ < 10 ^ 16 * 10 ^ (-scale : ℤ) := hsize
      _ = 10 ^ (16 - scale : ℤ) := by
        rw [sub_eq_add_neg, zpow_add₀ hten]
        norm_cast
  -- The digits end at their last place, or the first grid has the number.
  set fine : ℤ := min (-scale) (leadingPlace x.magnitude) with hfine
  have hulpFine : x.ulp < 10 ^ fine := by
    rcases min_choice (-scale : ℤ) (leadingPlace x.magnitude) with hmin | hmin
    · rw [hfine, hmin]
      have hulpPos := x.ulp_pos
      linarith
    · have hulp := mul_ulp_le hnormal
      have hlead := ten_zpow_pos (leadingPlace x.magnitude)
      rw [zpow_add₀ hten, zpow_one] at hhigh
      rw [hfine, hmin]
      linarith
  obtain ⟨j, hj⟩ := exists_on_finer_grid mantissa (show fine ≤ -scale from min_le_left _ _)
  have hnotPassed : fine ≤ k := by
    by_contra hlt
    exact hfound.passed fine (by omega) (min_le_right _ _) j (hj ▸ h)
  have hattracted := hfound.attracted (by omega)
  obtain ⟨i, hi⟩ := exists_on_finer_grid n hnotPassed
  have hsame : i = j := by
    refine eq_of_close (ten_zpow_pos fine) ?_
    rw [← hi, ← hj]
    exact (hattracted.close h).trans_lt hulpFine
  rw [shortestValue, hvalue, hi, hj, hsame]

end Binary64

end Fieldwise
