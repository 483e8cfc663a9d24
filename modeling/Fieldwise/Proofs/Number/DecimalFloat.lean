import Fieldwise.Number.DecimalFloat
import Fieldwise.Proofs.Number.Rounding

/-!
Decimals as floating-point numbers. The conversion goes over a grid of as many places as the decimal
has: up to 15 digits and 22 places the three roundings before that lose less than half a point of
the grid, so that the result is the number nearest to the decimal. With more it may be another one,
but never one below the least decimal, unless it is zero.
-/

namespace Fieldwise

namespace Binary64

variable {x y z : Binary64} {q : ℚ}

theorem negative_of_ofNat? {n : ℕ} (h : ofNat? n = some y) : y.negative = false :=
  negative_of_nearest? Nat.one_pos h

theorem attracts_of_ofNat? {n : ℕ} (hn : 0 < n) (h : ofNat? n = some y) : y.Attracts n := by
  have hspec := (nearest?_spec (v := Fraction.ofNat n) hn Nat.one_pos h).2
  rwa [Fraction.value_ofNat] at hspec

theorem magnitude_of_significand_eq_zero (hx : x.significand = 0) : x.magnitude.value = 0 := by
  rw [magnitude_value, hx]
  simp

theorem value_of_ofNat? {n : ℕ} (hn : n < 2 ^ 53) (h : ofNat? n = some y) :
    y.magnitude.value = n := by
  rcases Nat.eq_zero_or_pos n with rfl | hpos
  · rw [nearest?_zero rfl h, magnitude_of_significand_eq_zero rfl]
    rfl
  · exact (attracts_of_ofNat? hpos h).eq_natCast hn

theorem num_pos_of_value_pos {v : Fraction} (h : 0 < v.value) : 0 < v.num := by
  by_contra hnum
  rw [Fraction.value, Nat.eq_zero_of_not_pos hnum] at h
  simp at h

theorem attracts_of_addMagnitudes? (hpos : 0 < x.magnitude.value + y.magnitude.value)
    (h : x.addMagnitudes? y = some z) : z.Attracts (x.magnitude.value + y.magnitude.value) := by
  have hvalue := Fraction.value_add x.magnitude_den_pos y.magnitude_den_pos
  rw [← hvalue] at hpos ⊢
  exact (nearest?_spec (num_pos_of_value_pos hpos)
    (Fraction.add_den_pos x.magnitude_den_pos y.magnitude_den_pos) h).2

theorem attracts_of_mul? (hpos : 0 < x.magnitude.value * y.magnitude.value)
    (h : x.mul? y = some z) : z.Attracts (x.magnitude.value * y.magnitude.value) := by
  rw [← Fraction.value_mul] at hpos ⊢
  exact (nearest?_spec (num_pos_of_value_pos hpos)
    (Fraction.mul_den_pos x.magnitude_den_pos y.magnitude_den_pos) h).2

theorem attracts_of_div? (hpos : 0 < x.magnitude.value / y.magnitude.value)
    (hy : 0 < y.magnitude.value) (h : x.div? y = some z) :
    z.Attracts (x.magnitude.value / y.magnitude.value) := by
  rw [← Fraction.value_div] at hpos ⊢
  exact (nearest?_spec (num_pos_of_value_pos hpos)
    (Fraction.div_den_pos x.magnitude_den_pos (num_pos_of_value_pos hy)) h).2

/-- One rounding, as a factor on both sides. -/
theorem Attracts.error_bounds (h : y.Attracts q) (hq : (10 : ℚ) ^ (-28 : ℤ) ≤ q) :
    (1 - 1 / 2 ^ 53) * q ≤ y.magnitude.value ∧ y.magnitude.value ≤ (1 + 1 / 2 ^ 53) * q := by
  have hleast : (2 : ℚ) ^ (-1022 : ℤ) ≤ q := by
    have hpower : (2 : ℚ) ^ (-1022 : ℤ) ≤ 2 ^ (-100 : ℤ) :=
      zpow_le_zpow_right₀ one_le_two (by decide)
    have hsmall : (2 : ℚ) ^ (-100 : ℤ) ≤ 10 ^ (-28 : ℤ) := by norm_num
    linarith
  obtain ⟨hlow, hhigh⟩ := abs_le.mp (h.error_le hleast)
  constructor <;> linarith

end Binary64

namespace Decimal

open Binary64

variable {d : Decimal} {x y : Binary64}

/-! ### Powers of ten -/

/-- As far as decimals go, powers of ten are exact up to the 22nd and too small after it, if they
are wrong. -/
theorem powerOfTen?_spec {n : ℕ} (hn : n ≤ 28) {p : Binary64} (h : powerOfTen? n = some p) :
    p.negative = false ∧ 0 < p.magnitude.value ∧ p.magnitude.value ≤ 10 ^ 28 ∧
      (n < 28 → p.magnitude.value ≤ (1 - 1 / 2 ^ 52) * 10 ^ 28) ∧
      (n ≤ 22 → p.magnitude.value = 10 ^ n) := by
  have hall : ∀ n : Fin 29, (powerOfTen? n).all (fun p => decide (p.negative = false ∧
      0 < p.magnitude.num ∧ p.magnitude.num ≤ 10 ^ 28 * p.magnitude.den ∧
      (n.val < 28 → p.magnitude.num * 2 ^ 52 ≤ 10 ^ 28 * (2 ^ 52 - 1) * p.magnitude.den) ∧
      (n.val ≤ 22 → p.magnitude.num = 10 ^ n.val * p.magnitude.den))) = true := by
    decide +kernel
  have hp := hall ⟨n, by omega⟩
  rw [h] at hp
  obtain ⟨hnegative, hpos, hle, hless, hexact⟩ := of_decide_eq_true hp
  have hden : (0 : ℚ) < p.magnitude.den := by exact_mod_cast p.magnitude_den_pos
  refine ⟨hnegative, Fraction.value_pos hpos p.magnitude_den_pos, ?_, fun hn => ?_, fun hn => ?_⟩
  · rw [Fraction.value, div_le_iff₀ hden]
    exact_mod_cast hle
  · have hcross : (p.magnitude.num : ℚ) * 2 ^ 52 ≤ 10 ^ 28 * (2 ^ 52 - 1) * p.magnitude.den := by
      have hcast := Nat.cast_le (α := ℚ) |>.mpr (hless hn)
      push_cast at hcast
      linarith
    rw [Fraction.value, div_le_iff₀ hden]
    linarith
  · rw [Fraction.value, div_eq_iff hden.ne']
    exact_mod_cast hexact hn

theorem value_of_ofNat?_pow {n : ℕ} (hn : n ≤ 22) (h : ofNat? (10 ^ n) = some y) :
    y.magnitude.value = 10 ^ n := by
  have hall : ∀ n : Fin 23, (ofNat? (10 ^ n.val)).all
      (fun p => decide (p.magnitude.num = 10 ^ n.val * p.magnitude.den)) = true := by
    decide +kernel
  have hp := hall ⟨n, by omega⟩
  rw [h] at hp
  have hden : (y.magnitude.den : ℚ) ≠ 0 := by exact_mod_cast y.magnitude_den_pos.ne'
  rw [Fraction.value, div_eq_iff hden]
  exact_mod_cast of_decide_eq_true hp

/-! ### The two ways -/

/-- The way of a decimal with a fraction: both parts apart, their sum on the grid of the places. -/
structure ByParts (d : Decimal) (y whole fraction places grid : Binary64) : Prop where
  part_pos : 0 < d.mantissa % 10 ^ d.scale
  whole_eq : ofNat? (d.mantissa / 10 ^ d.scale) = some whole
  fraction_eq : ∃ part unit, ofNat? (d.mantissa % 10 ^ d.scale) = some part ∧
    ofNat? (10 ^ d.scale) = some unit ∧ part.div? unit = some fraction
  places_eq : powerOfTen? d.scale = some places
  grid_eq : ∃ sum product, whole.addMagnitudes? fraction = some sum ∧
    sum.mul? places = some product ∧ product.round? = some grid
  result_eq : grid.div? places = some y

theorem toBinary64?_cases (h : d.toBinary64? = some x) : ∃ y,
    x = (if d.isSigned then y.negate else y) ∧
      (d.mantissa % 10 ^ d.scale = 0 ∧ ofNat? (d.mantissa / 10 ^ d.scale) = some y ∨
        ∃ whole fraction places grid, ByParts d y whole fraction places grid) := by
  unfold toBinary64? at h
  obtain ⟨whole, hwhole, h⟩ := Option.bind_eq_some_iff.mp h
  dsimp only at h
  split at h
  · next hzero => exact ⟨whole, (Option.some.inj h).symm, .inl ⟨hzero, hwhole⟩⟩
  · next hpart =>
    obtain ⟨part, hpartEq, h⟩ := Option.bind_eq_some_iff.mp h
    obtain ⟨unit, hunit, h⟩ := Option.bind_eq_some_iff.mp h
    obtain ⟨fraction, hfraction, h⟩ := Option.bind_eq_some_iff.mp h
    obtain ⟨places, hplaces, h⟩ := Option.bind_eq_some_iff.mp h
    obtain ⟨sum, hsum, h⟩ := Option.bind_eq_some_iff.mp h
    obtain ⟨product, hproduct, h⟩ := Option.bind_eq_some_iff.mp h
    obtain ⟨grid, hgrid, h⟩ := Option.bind_eq_some_iff.mp h
    obtain ⟨y, hy, h⟩ := Option.bind_eq_some_iff.mp h
    exact ⟨y, (Option.some.inj h).symm, .inr ⟨whole, fraction, places, grid,
      Nat.pos_of_ne_zero hpart, hwhole, ⟨part, unit, hpartEq, hunit, hfraction⟩, hplaces,
      ⟨sum, product, hsum, hproduct, hgrid⟩, hy⟩⟩

/-- What three roundings make of a number that is put together from two parts and scaled. -/
theorem three_roundings {u w q f s t p : ℚ} (hu : 0 ≤ u) (hu' : u ≤ 1) (hw : 0 ≤ w) (ht : 0 ≤ t)
    (hf : (1 - u) * q ≤ f ∧ f ≤ (1 + u) * q)
    (hs : (1 - u) * (w + f) ≤ s ∧ s ≤ (1 + u) * (w + f))
    (hp : (1 - u) * (s * t) ≤ p ∧ p ≤ (1 + u) * (s * t)) :
    (1 - u) ^ 3 * ((w + q) * t) ≤ p ∧ p ≤ (1 + u) ^ 3 * ((w + q) * t) := by
  have hwLow : (1 - u) * w ≤ w := by
    have hprod : 0 ≤ u * w := mul_nonneg hu hw
    linarith
  have hwHigh : w ≤ (1 + u) * w := by
    have hprod : 0 ≤ u * w := mul_nonneg hu hw
    linarith
  have hdown : 0 ≤ 1 - u := by linarith
  have hup : 0 ≤ 1 + u := by linarith
  constructor
  · calc (1 - u) ^ 3 * ((w + q) * t)
        = (1 - u) * ((1 - u) * ((1 - u) * (w + q)) * t) := by ring
      _ ≤ (1 - u) * ((1 - u) * (w + f) * t) := by
          have hsum : (1 - u) * (w + q) ≤ w + f := by linarith [hf.1]
          exact mul_le_mul_of_nonneg_left
            (mul_le_mul_of_nonneg_right (mul_le_mul_of_nonneg_left hsum hdown) ht) hdown
      _ ≤ (1 - u) * (s * t) :=
          mul_le_mul_of_nonneg_left (mul_le_mul_of_nonneg_right hs.1 ht) hdown
      _ ≤ p := hp.1
  · calc p ≤ (1 + u) * (s * t) := hp.2
      _ ≤ (1 + u) * ((1 + u) * (w + f) * t) :=
          mul_le_mul_of_nonneg_left (mul_le_mul_of_nonneg_right hs.2 ht) hup
      _ ≤ (1 + u) * ((1 + u) * ((1 + u) * (w + q)) * t) := by
          have hsum : w + f ≤ (1 + u) * (w + q) := by linarith [hf.2]
          exact mul_le_mul_of_nonneg_left
            (mul_le_mul_of_nonneg_right (mul_le_mul_of_nonneg_left hsum hup) ht) hup
      _ = (1 + u) ^ 3 * ((w + q) * t) := by ring

namespace ByParts

variable {whole fraction places grid : Binary64}

/-- The point of the grid is a whole number, converted without its sign. -/
theorem exists_point (h : ByParts d y whole fraction places grid) : ∃ sum product,
    whole.addMagnitudes? fraction = some sum ∧ sum.mul? places = some product ∧
      ofNat? product.magnitude.roundHalfUp = some grid := by
  obtain ⟨sum, product, hsum, hproduct, hgrid⟩ := h.grid_eq
  obtain ⟨hplaces, -⟩ := powerOfTen?_spec d.scale_le h.places_eq
  have hsumSign : sum.negative = false := negative_of_nearest?
    (Fraction.add_den_pos whole.magnitude_den_pos fraction.magnitude_den_pos) hsum
  have hproductSign : product.negative = false := by
    rw [negative_of_nearest? (Fraction.mul_den_pos sum.magnitude_den_pos places.magnitude_den_pos)
      hproduct, hsumSign, hplaces]
    rfl
  rw [round?, hproductSign] at hgrid
  exact ⟨sum, product, hsum, hproduct, hgrid⟩

theorem negative_eq (h : ByParts d y whole fraction places grid) : y.negative = false := by
  obtain ⟨hplaces, hpos, -⟩ := powerOfTen?_spec d.scale_le h.places_eq
  obtain ⟨sum, product, -, -, hgrid⟩ := h.exists_point
  rw [negative_of_nearest? (Fraction.div_den_pos grid.magnitude_den_pos (num_pos_of_value_pos hpos))
    h.result_eq, negative_of_ofNat? hgrid, hplaces]
  rfl

theorem not_tiny (h : ByParts d y whole fraction places grid) :
    y.significand = 0 ∨ (10 : ℚ) ^ (-28 : ℤ) ≤ y.magnitude.value := by
  obtain ⟨hsign, hpos, hle, hless, -⟩ := powerOfTen?_spec d.scale_le h.places_eq
  obtain ⟨-, product, -, -, hgrid⟩ := h.exists_point
  generalize product.magnitude.roundHalfUp = n at hgrid
  have hresult := h.result_eq
  rcases Nat.eq_zero_or_pos n with rfl | hn
  · left
    obtain rfl := nearest?_zero rfl hgrid
    rw [nearest?_zero (Nat.zero_mul _) hresult]
    rfl
  · right
    have hn' : (1 : ℚ) ≤ n := by exact_mod_cast hn
    have hgridLow : (1 - 1 / 2 ^ 53) * (n : ℚ) ≤ grid.magnitude.value :=
      ((attracts_of_ofNat? hn hgrid).error_bounds (le_trans (by norm_num) hn')).1
    have hgridPos : 0 < grid.magnitude.value := by linarith
    have hattracts := attracts_of_div? (div_pos hgridPos hpos) hpos hresult
    by_cases hscale : d.scale < 28
    · have hquotient : (1 - 1 / 2 ^ 53) / ((1 - 1 / 2 ^ 52) * 10 ^ 28) ≤
          grid.magnitude.value / places.magnitude.value :=
        div_le_div₀ hgridPos.le (by linarith) hpos (hless hscale)
      obtain ⟨hlow, -⟩ := hattracts.error_bounds (le_trans (by norm_num) hquotient)
      refine le_trans ?_ hlow
      calc (10 : ℚ) ^ (-28 : ℤ)
          ≤ (1 - 1 / 2 ^ 53) * ((1 - 1 / 2 ^ 53) / ((1 - 1 / 2 ^ 52) * 10 ^ 28)) := by norm_num
        _ ≤ (1 - 1 / 2 ^ 53) * (grid.magnitude.value / places.magnitude.value) :=
          mul_le_mul_of_nonneg_left hquotient (by norm_num)
    · have hlast : d.scale = 28 := le_antisymm d.scale_le (Nat.not_lt.mp hscale)
      rcases Nat.eq_or_lt_of_le hn with rfl | htwo
      · -- The least decimal itself, where only the last rounding goes up.
        have hplaces := h.places_eq
        rw [hlast] at hplaces
        have hleast : (powerOfTen? 28).all (fun p => (ofNat? 1).all fun one => (one.div? p).all
            fun y => decide (y.magnitude.den ≤ y.magnitude.num * 10 ^ 28)) = true := by
          decide +kernel
        rw [hplaces, Option.all_some, hgrid, Option.all_some, hresult, Option.all_some] at hleast
        have hden : (0 : ℚ) < y.magnitude.den := by exact_mod_cast y.magnitude_den_pos
        rw [Fraction.value, le_div_iff₀ hden]
        have hcast : (y.magnitude.den : ℚ) ≤ y.magnitude.num * 10 ^ 28 := by
          exact_mod_cast of_decide_eq_true hleast
        norm_num at hcast ⊢
        linarith
      · have htwo' : (2 : ℚ) ≤ n := by exact_mod_cast htwo
        have hquotient : (1 - 1 / 2 ^ 53) * 2 / 10 ^ 28 ≤
            grid.magnitude.value / places.magnitude.value :=
          div_le_div₀ hgridPos.le (by linarith) hpos hle
        obtain ⟨hlow, -⟩ := hattracts.error_bounds (le_trans (by norm_num) hquotient)
        refine le_trans ?_ hlow
        calc (10 : ℚ) ^ (-28 : ℤ) ≤ (1 - 1 / 2 ^ 53) * ((1 - 1 / 2 ^ 53) * 2 / 10 ^ 28) := by
              norm_num
          _ ≤ (1 - 1 / 2 ^ 53) * (grid.magnitude.value / places.magnitude.value) :=
            mul_le_mul_of_nonneg_left hquotient (by norm_num)

/-- What the three roundings before the grid leave of a decimal of up to 15 digits and 22 places. -/
theorem product_bounds (h : ByParts d y whole fraction places grid) (hdigits : d.mantissa < 10 ^ 15)
    (hscale : d.scale ≤ 22) {sum product : Binary64} (hsum : whole.addMagnitudes? fraction = some sum)
    (hproduct : sum.mul? places = some product) :
    (1 - 1 / 2 ^ 53) ^ 3 * (d.mantissa : ℚ) ≤ product.magnitude.value ∧
      product.magnitude.value ≤ (1 + 1 / 2 ^ 53) ^ 3 * (d.mantissa : ℚ) := by
  obtain ⟨-, hplacesPos, -, -, hplaces⟩ := powerOfTen?_spec d.scale_le h.places_eq
  have hplaces := hplaces hscale
  obtain ⟨part, unit, hpart, hunit, hfraction⟩ := h.fraction_eq
  have hpartPos := h.part_pos
  have hsplit := Nat.div_add_mod' d.mantissa (10 ^ d.scale)
  have hwholeValue := value_of_ofNat? (lt_of_le_of_lt (Nat.div_le_self _ _) (by omega)) h.whole_eq
  have hpartValue := value_of_ofNat? (lt_of_le_of_lt (Nat.mod_le _ _) (by omega)) hpart
  have hunitValue := value_of_ofNat?_pow hscale hunit
  generalize d.mantissa / 10 ^ d.scale = w at hsplit hwholeValue
  generalize d.mantissa % 10 ^ d.scale = r at hpartPos hsplit hpartValue
  set t : ℚ := 10 ^ d.scale with ht
  have htPos : 0 < t := by positivity
  have htOne : 1 ≤ t := one_le_pow₀ (by norm_num)
  have htLe : t ≤ 10 ^ 22 := pow_le_pow_right₀ (by norm_num) hscale
  have hr : (1 : ℚ) ≤ r := by exact_mod_cast hpartPos
  have hw : (0 : ℚ) ≤ w := Nat.cast_nonneg w
  have hmantissa : ((w : ℚ) + r / t) * t = d.mantissa := by
    rw [add_mul, div_mul_cancel₀ _ htPos.ne', ht]
    exact_mod_cast hsplit
  -- None of the numbers on the way is too small for the bound on its error.
  have hquotient : 1 / 10 ^ 22 ≤ (r : ℚ) / t := div_le_div₀ (by linarith) hr htPos htLe
  have hfractionError : (1 - 1 / 2 ^ 53) * (r / t) ≤ fraction.magnitude.value ∧
      fraction.magnitude.value ≤ (1 + 1 / 2 ^ 53) * (r / t) := by
    have hattracts := attracts_of_div? (by rw [hpartValue, hunitValue]; positivity)
      (by rw [hunitValue]; exact htPos) hfraction
    rw [hpartValue, hunitValue] at hattracts
    exact hattracts.error_bounds (le_trans (by norm_num) hquotient)
  have hfractionLow : (1 : ℚ) / 10 ^ 23 ≤ fraction.magnitude.value := by
    refine le_trans ?_ hfractionError.1
    calc (1 : ℚ) / 10 ^ 23 ≤ (1 - 1 / 2 ^ 53) * (1 / 10 ^ 22) := by norm_num
      _ ≤ (1 - 1 / 2 ^ 53) * (r / t) := mul_le_mul_of_nonneg_left hquotient (by norm_num)
  have hsumError : (1 - 1 / 2 ^ 53) * (w + fraction.magnitude.value) ≤ sum.magnitude.value ∧
      sum.magnitude.value ≤ (1 + 1 / 2 ^ 53) * (w + fraction.magnitude.value) := by
    have hattracts := attracts_of_addMagnitudes? (by rw [hwholeValue]; linarith) hsum
    rw [hwholeValue] at hattracts
    refine hattracts.error_bounds (le_trans ?_ (hfractionLow.trans (by linarith)))
    norm_num
  have hsumLow : (1 : ℚ) / 10 ^ 24 ≤ sum.magnitude.value := by
    refine le_trans ?_ hsumError.1
    calc (1 : ℚ) / 10 ^ 24 ≤ (1 - 1 / 2 ^ 53) * (1 / 10 ^ 23) := by norm_num
      _ ≤ (1 - 1 / 2 ^ 53) * (w + fraction.magnitude.value) :=
        mul_le_mul_of_nonneg_left (by linarith) (by norm_num)
  have hproductError : (1 - 1 / 2 ^ 53) * (sum.magnitude.value * t) ≤ product.magnitude.value ∧
      product.magnitude.value ≤ (1 + 1 / 2 ^ 53) * (sum.magnitude.value * t) := by
    have hattracts := attracts_of_mul? (mul_pos (by linarith) hplacesPos) hproduct
    rw [hplaces] at hattracts
    refine hattracts.error_bounds (le_trans (by norm_num) (hsumLow.trans ?_))
    exact le_mul_of_one_le_right (by linarith) htOne
  have hthree := three_roundings (by norm_num) (by norm_num) hw htPos.le hfractionError hsumError
    hproductError
  rwa [hmantissa] at hthree

theorem attracts (h : ByParts d y whole fraction places grid) (hdigits : d.mantissa < 10 ^ 15)
    (hscale : d.scale ≤ 22) : y.Attracts d.magnitude.value := by
  obtain ⟨-, hplacesPos, -, -, hplaces⟩ := powerOfTen?_spec d.scale_le h.places_eq
  obtain ⟨sum, product, hsum, hproduct, hgrid⟩ := h.exists_point
  obtain ⟨hlow, hhigh⟩ := h.product_bounds hdigits hscale hsum hproduct
  have hmantissaLt : (d.mantissa : ℚ) < 10 ^ 15 := by exact_mod_cast hdigits
  have hmantissaNonneg : (0 : ℚ) ≤ d.mantissa := Nat.cast_nonneg _
  have hpoint : product.magnitude.roundHalfUp = d.mantissa := by
    rw [Fraction.roundHalfUp_eq product.magnitude_den_pos, Nat.floor_eq_iff (by linarith)]
    norm_num at hlow hhigh
    constructor <;> linarith
  rw [hpoint] at hgrid
  have hgridValue := value_of_ofNat? (by omega) hgrid
  have hpos : 0 < d.mantissa := h.part_pos.trans_le (Nat.mod_le _ _)
  have hresult := attracts_of_div? (div_pos (by rw [hgridValue]; exact_mod_cast hpos) hplacesPos)
    hplacesPos h.result_eq
  rwa [hgridValue, hplaces hscale, ← magnitude_value] at hresult

end ByParts

/-! ### The conversion -/

/-- The sign goes on at the end, so that the size is that of a number without sign. -/
theorem toBinary64?_induction {P : Binary64 → Prop} (hnegate : ∀ y, P y → P y.negate)
    (hwhole : ∀ y, d.mantissa % 10 ^ d.scale = 0 → ofNat? (d.mantissa / 10 ^ d.scale) = some y → P y)
    (hparts : ∀ y whole fraction places grid, ByParts d y whole fraction places grid → P y)
    (h : d.toBinary64? = some x) : P x := by
  obtain ⟨y, rfl, hy⟩ := toBinary64?_cases h
  have hsize : P y := by
    rcases hy with ⟨hzero, hy⟩ | ⟨whole, fraction, places, grid, hy⟩
    · exact hwhole y hzero hy
    · exact hparts y whole fraction places grid hy
  split
  · exact hnegate y hsize
  · exact hsize

theorem negative_of_toBinary64? (h : d.toBinary64? = some x) : x.negative = d.isSigned := by
  obtain ⟨y, rfl, hy⟩ := toBinary64?_cases h
  have hsign : y.negative = false := by
    rcases hy with ⟨-, hy⟩ | ⟨whole, fraction, places, grid, hy⟩
    · exact negative_of_ofNat? hy
    · exact hy.negative_eq
  cases d.isSigned with
  | false => exact hsign
  | true =>
    show (!y.negative) = true
    rw [hsign]
    rfl

theorem isSigned_eq (h : 0 < d.mantissa) : d.isSigned = d.negative := by
  simp [isSigned, h]

theorem significand_of_toBinary64?_zero (hzero : d.mantissa = 0) (h : d.toBinary64? = some x) :
    x.significand = 0 := by
  refine toBinary64?_induction (P := fun x => x.significand = 0) (fun _ => id) ?_ ?_ h
  · intro y _ hy
    rw [hzero, Nat.zero_div] at hy
    rw [nearest?_zero rfl hy]
    rfl
  · intro y whole fraction places grid hy
    have hpos := hy.part_pos
    rw [hzero, Nat.zero_mod] at hpos
    exact absurd hpos (Nat.lt_irrefl 0)

theorem not_tiny_of_toBinary64? (h : d.toBinary64? = some x) :
    x.significand = 0 ∨ (10 : ℚ) ^ (-28 : ℤ) ≤ x.magnitude.value := by
  refine toBinary64?_induction
    (P := fun x => x.significand = 0 ∨ (10 : ℚ) ^ (-28 : ℤ) ≤ x.magnitude.value)
    (fun _ => id) ?_ (fun y _ _ _ _ hy => hy.not_tiny) h
  intro y _ hy
  generalize d.mantissa / 10 ^ d.scale = n at hy
  rcases Nat.eq_zero_or_pos n with rfl | hn
  · left
    rw [nearest?_zero rfl hy]
    rfl
  · right
    have hn' : (1 : ℚ) ≤ n := by exact_mod_cast hn
    have hlow := ((attracts_of_ofNat? hn hy).error_bounds (le_trans (by norm_num) hn')).1
    refine le_trans ?_ hlow
    calc (10 : ℚ) ^ (-28 : ℤ) ≤ (1 - 1 / 2 ^ 53) * 1 := by norm_num
      _ ≤ (1 - 1 / 2 ^ 53) * n := mul_le_mul_of_nonneg_left hn' (by norm_num)

theorem attracts_of_toBinary64? (hpos : 0 < d.mantissa) (hdigits : d.mantissa < 10 ^ 15)
    (hscale : d.scale ≤ 22) (h : d.toBinary64? = some x) : x.Attracts d.magnitude.value := by
  refine toBinary64?_induction (P := fun x => x.Attracts d.magnitude.value) (fun _ => id) ?_
    (fun y _ _ _ _ hy => hy.attracts hdigits hscale) h
  intro y hzero hy
  obtain ⟨n, hn⟩ := Nat.dvd_of_mod_eq_zero hzero
  have hunit : 0 < 10 ^ d.scale := Nat.pow_pos (by decide)
  have hnPos : 0 < n := Nat.pos_of_mul_pos_left (hn ▸ hpos)
  rw [hn, Nat.mul_div_cancel_left n hunit] at hy
  have hvalue : d.magnitude.value = n := by
    rw [magnitude_value, hn]
    push_cast
    exact mul_div_cancel_left₀ _ (by positivity)
  rw [hvalue]
  exact attracts_of_ofNat? hnPos hy

theorem magnitude_lt_of_ofBinary64? (h : ofBinary64? x = some d) : x.magnitude.value < 2 ^ 96 := by
  obtain ⟨hlt, -⟩ := x.canonical
  have hlt' : (x.significand : ℚ) < 2 ^ 53 := by exact_mod_cast hlt
  rw [magnitude_value_eq, ulp]
  rcases lt_or_ge x.exponent 0 with hneg | hnonneg
  · calc (x.significand : ℚ) * 2 ^ x.exponent
        ≤ x.significand := mul_le_of_le_one_right (Nat.cast_nonneg _)
          (zpow_le_one_of_nonpos₀ one_le_two hneg.le)
      _ < 2 ^ 96 := by linarith
  · have hpower : (2 : ℚ) ^ x.exponent = 2 ^ x.exponent.toNat := by
      rw [← zpow_natCast, Int.toNat_of_nonneg hnonneg]
    rw [hpower]
    unfold ofBinary64? at h
    split at h
    · next hzero =>
      rw [beq_iff_eq.mp hzero]
      norm_num
    · unfold make? at h
      split at h
      · next hroom => exact_mod_cast hroom.1
      · cases h

end Decimal

end Fieldwise
