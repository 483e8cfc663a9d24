import Fieldwise.Proofs.Number.DecimalReading
import Fieldwise.Proofs.Number.Shortest

/-!
The written forms of numbers are literals: the positional and the scientific form of shortest
digits, and the text of a decimal. So what each of them is read as follows from what its literal
says.
-/

namespace Fieldwise

def writtenSign (negative : Bool) : Option Bool := if negative then some true else none

theorem writtenSign_eq (negative : Bool) : (writtenSign negative == some true) = negative := by
  cases negative <;> rfl

namespace Binary64

variable {digits : List Char} {place : ℤ}

theorem signText_eq (x : Binary64) : x.signText = signChars (writtenSign x.negative) := by
  unfold signText writtenSign
  cases x.negative <;> rfl

/-- A literal with the same digits, and zeros after them, says the same if its point stands there.
-/
theorem abs_value_eq_placedValue {l : Literal} (zeros : ℕ)
    (hdigits : Text.numeralValue l.digits = Text.numeralValue digits * 10 ^ zeros)
    (hpoint : l.power - (l.places.getD []).length + zeros = place + 1 - digits.length) :
    |l.value| = placedValue digits place := by
  rw [Literal.abs_value, hdigits, placedValue, ← hpoint, zpow_add₀ (by norm_num), zpow_natCast]
  push_cast
  ring

theorem Placed.exists_positional_of_neg (h : Placed digits place) (negative : Bool)
    (hlow : -5 ≤ place) (hplace : place < 0) : ∃ l : Literal,
      l.chars = signChars (writtenSign negative) ++ positional digits place ∧
        l.negative = negative ∧ l.power = 0 ∧ l.digits.length ≤ 28 ∧
          |l.value| = placedValue digits place := by
  have hlength := h.length_le
  let l : Literal := {
    sign := writtenSign negative
    whole := ['0']
    places := some (List.replicate (-place - 1).toNat '0' ++ digits)
    exponent := none
    decimalWhole := List.all_eq_true.mp rfl
    decimalPlaces := by
      intro c hc
      exact (List.mem_append.mp hc).elim Text.isDigit_of_mem_zeros (h.decimal c)
    nonempty := by simp }
  have hdigits : l.digits = List.replicate ((-place - 1).toNat + 1) '0' ++ digits := rfl
  refine ⟨l, ?_, writtenSign_eq negative, rfl, ?_, abs_value_eq_placedValue 0 ?_ ?_⟩
  · simp [l, positional, if_pos hplace, Literal.chars, Literal.baseChars, Literal.pointed,
      Literal.exponentChars]
  · rw [hdigits, List.length_append, List.length_replicate]
    omega
  · rw [hdigits, Text.numeralValue_zeros_append, pow_zero, mul_one]
  · show (0 : ℤ) - (List.replicate (-place - 1).toNat '0' ++ digits).length + (0 : ℕ) = _
    rw [List.length_append, List.length_replicate]
    push_cast
    omega

theorem Placed.exists_positional_of_nonneg (h : Placed digits place) (negative : Bool)
    (hplace : 0 ≤ place) (hhigh : place < 16) : ∃ l : Literal,
      l.chars = signChars (writtenSign negative) ++ positional digits place ∧
        l.negative = negative ∧ l.power = 0 ∧ l.digits.length ≤ 28 ∧
          |l.value| = placedValue digits place := by
  have hlength := h.length_le
  have hdrop : ∀ c ∈ digits.drop (place.toNat + 1), c.isDigit := fun c hc =>
    h.decimal c (List.mem_of_mem_drop hc)
  let l : Literal := {
    sign := writtenSign negative
    whole := digits.take (place.toNat + 1) ++
      List.replicate (place.toNat + 1 - digits.length) '0'
    places := some (if (digits.drop (place.toNat + 1)).isEmpty then ['0']
      else digits.drop (place.toNat + 1))
    exponent := none
    decimalWhole := by
      intro c hc
      exact (List.mem_append.mp hc).elim (fun hc => h.decimal c (List.mem_of_mem_take hc))
        Text.isDigit_of_mem_zeros
    decimalPlaces := by
      intro c hc
      rw [Option.getD_some] at hc
      split at hc
      · rw [List.mem_singleton.mp hc]
        rfl
      · exact hdrop c hc
    nonempty := by simp [h.nonempty] }
  have hchars : l.chars = signChars (writtenSign negative) ++ positional digits place := by
    simp [l, positional, if_neg (Int.not_lt.mpr hplace), Literal.chars, Literal.baseChars,
      Literal.pointed, Literal.exponentChars]
  rcases Nat.lt_or_ge (place.toNat + 1) digits.length with hamong | hafter
  · have hempty : (digits.drop (place.toNat + 1)).isEmpty = false := by
      rw [List.isEmpty_eq_false_iff, Ne, List.drop_eq_nil_iff]
      omega
    have hplaces : l.places = some (digits.drop (place.toNat + 1)) := by
      simp [l, hempty]
    have hdigits : l.digits = digits := by
      rw [Literal.digits, hplaces]
      simp [l, Nat.sub_eq_zero_of_le hamong.le]
    refine ⟨l, hchars, writtenSign_eq negative, rfl, by rw [hdigits]; omega,
      abs_value_eq_placedValue 0 (by rw [hdigits, pow_zero, mul_one]) ?_⟩
    rw [hplaces, Option.getD_some, List.length_drop]
    show (0 : ℤ) - _ + (0 : ℕ) = _
    omega
  · have hempty : (digits.drop (place.toNat + 1)).isEmpty = true := by
      rw [List.isEmpty_iff, List.drop_eq_nil_iff]
      exact hafter
    have hplaces : l.places = some ['0'] := by simp [l, hempty]
    have hdigits : l.digits =
        digits ++ List.replicate (place.toNat + 1 - digits.length + 1) '0' := by
      rw [Literal.digits, hplaces, List.replicate_succ', ← List.append_assoc]
      simp [l, List.take_of_length_le hafter]
    refine ⟨l, hchars, writtenSign_eq negative, rfl, ?_,
      abs_value_eq_placedValue (place.toNat + 1 - digits.length + 1)
        (by rw [hdigits, Text.numeralValue_append_zeros]) ?_⟩
    · rw [hdigits, List.length_append, List.length_replicate]
      omega
    · rw [hplaces]
      show (0 : ℤ) - (1 : ℕ) + _ = _
      push_cast
      omega

theorem Placed.exists_scientific (h : Placed digits place) (negative : Bool) : ∃ l : Literal,
      l.chars = signChars (writtenSign negative) ++ (pointed digits ++
        'e' :: (if place < 0 then '-' else '+') :: Text.numeral place.natAbs) ∧
        l.negative = negative ∧ l.power = place ∧ l.digits.length ≤ 28 ∧
          |l.value| = placedValue digits place := by
  have hlength := h.length_le
  have hdecimal := h.decimal
  obtain ⟨d, ds, rfl⟩ := List.exists_cons_of_ne_nil h.nonempty
  let e : WrittenExponent := {
    mark := 'e'
    sign := some (decide (place < 0))
    digits := Text.numeral place.natAbs
    isMark := .inl rfl
    nonempty := Text.numeral_ne_nil _
    decimal := fun _ => Text.isDigit_of_mem_numeral }
  let l : Literal := {
    sign := writtenSign negative
    whole := [d]
    places := if ds = [] then none else some ds
    exponent := some e
    decimalWhole := by simpa using hdecimal d (by simp)
    decimalPlaces := by
      intro c hc
      split at hc
      · cases hc
      · exact hdecimal c (List.mem_cons_of_mem d hc)
    nonempty := by simp }
  have hplaces : l.places.getD [] = ds := by
    show (if ds = [] then none else some ds).getD [] = ds
    split
    · next hnil => rw [hnil]; rfl
    · rfl
  have hdigits : l.digits = d :: ds := by
    rw [Literal.digits, hplaces]
    rfl
  have hpower : l.power = place := by
    show (if some (decide (place < 0)) = some true then
      -(Text.numeralValue (Text.numeral place.natAbs) : ℤ)
        else Text.numeralValue (Text.numeral place.natAbs)) = place
    rw [Text.numeralValue_numeral]
    simp only [Option.some.injEq, decide_eq_true_eq]
    split <;> omega
  refine ⟨l, ?_, writtenSign_eq negative, hpower, by rw [hdigits]; omega,
    abs_value_eq_placedValue 0 (by rw [hdigits, pow_zero, mul_one]) ?_⟩
  · have hpointed : [d] ++ l.pointed = pointed (d :: ds) := by
      unfold Literal.pointed
      cases ds <;> simp [l, pointed]
    have hsign : signChars (some (decide (place < 0))) = [if place < 0 then '-' else '+'] := by
      by_cases hneg : place < 0 <;> simp [signChars, hneg]
    rw [Literal.chars, Literal.baseChars, ← hpointed]
    simp [l, e, Literal.exponentChars, WrittenExponent.chars, WrittenExponent.numeral, hsign]
  · rw [hplaces, hpower, List.length_cons]
    push_cast
    omega

theorem exists_documentText (x : Binary64) : ∃ l : Literal,
    x.documentText = String.ofList l.chars ∧ l.negative = x.negative ∧
      (l.power = 0 ∨ l.power = (x.shortest .toEven).2) ∧ l.digits.length ≤ 28 ∧
        |l.value| = x.shortestValue := by
  have hplaced := placed_shortest .toEven x
  unfold documentText shortestValue
  rw [signText_eq]
  generalize x.shortest .toEven = written at hplaced ⊢
  obtain ⟨digits, place⟩ := written
  dsimp only at hplaced ⊢
  split
  · next hrange =>
    simp only [Bool.and_eq_true, decide_eq_true_eq] at hrange
    have hpositional : ∃ l : Literal,
        l.chars = signChars (writtenSign x.negative) ++ positional digits place ∧
          l.negative = x.negative ∧ l.power = 0 ∧ l.digits.length ≤ 28 ∧
            |l.value| = placedValue digits place := by
      rcases lt_or_ge place 0 with hneg | hnonneg
      · exact hplaced.exists_positional_of_neg x.negative hrange.1 hneg
      · exact hplaced.exists_positional_of_nonneg x.negative hnonneg hrange.2
    obtain ⟨l, hchars, hsign, hpower, hlength, hvalue⟩ := hpositional
    exact ⟨l, by rw [hchars], hsign, .inl hpower, hlength, hvalue⟩
  · obtain ⟨l, hchars, hsign, hpower, hlength, hvalue⟩ := hplaced.exists_scientific x.negative
    exact ⟨l, by rw [hchars], hsign, .inr hpower, hlength, hvalue⟩

/-- A number in a document is read as its shortest digits, rounded to 28 places. -/
theorem ofText?_documentText {x : Binary64} (hlow : -28 ≤ (x.shortest .toEven).2)
    (hroom : x.shortestValue < 2 ^ 96) : ∃ d, Decimal.ofText? x.documentText = some d ∧
      d.value = signOf x.negative * Decimal.toPlaces x.shortestValue := by
  obtain ⟨l, htext, hsign, hpower, hlength, hvalue⟩ := x.exists_documentText
  have hhigh : (x.shortest .toEven).2 ≤ 28 := by
    rcases (placed_shortest .toEven x).pow_le with hzero | hle
    · omega
    · by_contra hlarge
      have hten : (10 : ℚ) ^ (29 : ℤ) ≤ 10 ^ (x.shortest .toEven).2 :=
        zpow_le_zpow_right₀ (by norm_num) (by omega)
      have hbound : (2 : ℚ) ^ 96 < 10 ^ (29 : ℤ) := by norm_num
      rw [shortestValue] at hroom
      linarith
  rw [htext, ← hsign, ← hvalue]
  rw [← hvalue] at hroom
  exact Decimal.ofText?_of_isDecimal_base (Decimal.isDecimal_base_of_length_le hlength)
    (by omega) (by omega) hroom

end Binary64

namespace Decimal

theorem exists_text (d : Decimal) : ∃ l : Literal, d.text = String.ofList l.chars ∧
    l.power = 0 ∧ l.value = d.value := by
  have hpadded : (Text.paddedNumeral (d.scale + 1) d.mantissa).length ≥ d.scale + 1 := by
    simp only [Text.paddedNumeral, Text.padLeft, List.length_append, List.length_replicate]
    omega
  have hall : ∀ c ∈ Text.paddedNumeral (d.scale + 1) d.mantissa, c.isDigit :=
    fun c => Text.isDigit_of_mem_padLeft
  have hnumber : Text.numeralValue (Text.paddedNumeral (d.scale + 1) d.mantissa) = d.mantissa :=
    Text.numeralValue_padLeft _ _
  unfold text
  generalize Text.paddedNumeral (d.scale + 1) d.mantissa = digits at hpadded hall hnumber ⊢
  let l : Literal := {
    sign := writtenSign d.negative
    whole := digits.take (digits.length - d.scale)
    places := if d.scale = 0 then none else some (digits.drop (digits.length - d.scale))
    exponent := none
    decimalWhole := fun c hc => hall c (List.mem_of_mem_take hc)
    decimalPlaces := by
      intro c hc
      split at hc
      · cases hc
      · exact hall c (List.mem_of_mem_drop hc)
    nonempty := by
      intro hnil
      have hlength := congrArg List.length hnil
      rw [List.length_append, List.length_take, List.length_nil] at hlength
      omega }
  have hplaces : l.places.getD [] = digits.drop (digits.length - d.scale) := by
    show (if d.scale = 0 then none else some (digits.drop (digits.length - d.scale))).getD [] = _
    split
    · next hzero =>
      rw [hzero, Nat.sub_zero, List.drop_length]
      rfl
    · rfl
  have hdigits : l.digits = digits := by
    rw [Literal.digits, hplaces]
    exact List.take_append_drop _ _
  refine ⟨l, ?_, rfl, ?_⟩
  · have hpointed : l.whole ++ l.pointed = if d.scale = 0 then digits.take (digits.length - d.scale)
        else digits.take (digits.length - d.scale) ++
          '.' :: digits.drop (digits.length - d.scale) := by
      unfold Literal.pointed
      by_cases hzero : d.scale = 0 <;> simp [l, hzero]
    have hexponent : l.exponentChars = [] := rfl
    rw [Literal.chars, Literal.baseChars, hexponent, List.append_nil, hpointed]
    dsimp only
    cases hsign : d.negative <;> simp [l, writtenSign, signChars, hsign]
  · have hpower : l.power = 0 := rfl
    have hnegative : l.negative = d.negative := writtenSign_eq d.negative
    rw [Literal.value, Literal.base, hpower, hnegative, hdigits, hnumber, hplaces, List.length_drop,
      Nat.sub_sub_self (by omega), zpow_zero, mul_one, value, magnitude_value]

theorem ofText?_trim_text (d : Decimal) :
    ∃ d', ofText? (Text.trim d.text) = some d' ∧ d'.value = d.value := by
  obtain ⟨l, htext, hpower, hvalue⟩ := d.exists_text
  have htrim : Text.trim d.text = d.text := by
    rw [htext]
    exact Text.trim_of_no_blank fun c hc =>
      Literal.not_blank_of_mem_chars (by rwa [String.toList_ofList] at hc)
  have hbase : l.base = d.value := by
    rw [← hvalue, Literal.value, hpower, zpow_zero, mul_one]
  have hroom : |l.value| < 2 ^ 96 := by
    rw [hvalue, abs_value, magnitude_value]
    calc (d.mantissa : ℚ) / 10 ^ d.scale
        ≤ d.mantissa := div_le_self (by positivity) (one_le_pow₀ (by norm_num))
      _ < 2 ^ 96 := by exact_mod_cast d.mantissa_lt
  obtain ⟨d', hread, hd'⟩ := ofText?_of_isDecimal_base (l := l) ⟨d, hbase.symm⟩
    (by omega) (by omega) hroom
  refine ⟨d', by rw [htrim, htext, hread], ?_⟩
  rw [hd', hvalue, toPlaces_abs_value, ← hvalue, ← l.value_eq_signOf_mul_abs]

end Decimal

end Fieldwise
