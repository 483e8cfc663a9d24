import Fieldwise.Proofs.Conversion.Returning
import Fieldwise.Proofs.Number.DecimalFloat
import Fieldwise.Proofs.Number.WrittenForms

/-!
Decimals that are shown and taken back. A decimal always comes back as one, but where it is shown as
a number it is taken from the shortest digits of that number, which need not be its own: whether
they are is not what decides on the form. Up to 15 digits and 22 places they are.
-/

namespace Fieldwise

namespace Decimal

variable {d d' : Decimal} {x : Binary64}

theorem value_eq_signOf_mul_abs (d : Decimal) : d.value = signOf d.negative * |d.value| := by
  rw [abs_value, value]

theorem toPlaces_nonneg (q : ℚ) : 0 ≤ toPlaces q := by
  unfold toPlaces
  positivity

theorem toBinary64?_of_exactFloat? (h : d.exactFloat? = some x) :
    d.toBinary64? = some x ∧ ∃ d', ofBinary64? x = some d' ∧ d'.value = d.value := by
  obtain ⟨hx, hback⟩ := Option.filter_eq_some_iff.mp h
  cases hd' : ofBinary64? x with
  | none =>
    rw [hd'] at hback
    cases hback
  | some d' =>
    rw [hd'] at hback
    exact ⟨hx, d', rfl, (sameValue_iff.mp hback).symm⟩

theorem shortestValue_of_significand_eq_zero (hx : x.significand = 0) : x.shortestValue = 0 := by
  rw [Binary64.shortestValue, Binary64.shortest_zero .toEven hx]
  simp [Binary64.placedValue, Text.numeralValue, Text.digitValue]

/-- The number that stands for a decimal in documents is read, as its shortest digits. -/
theorem ofText?_exactFloat (h : d.exactFloat? = some x) : ∃ d', ofText? x.documentText = some d' ∧
    d'.value = signOf d.negative * toPlaces x.shortestValue := by
  obtain ⟨hx, b, hb, -⟩ := toBinary64?_of_exactFloat? h
  have hplace : -28 ≤ (x.shortest .toEven).2 := by
    rcases Nat.eq_zero_or_pos x.significand with hzero | hpos
    · rw [Binary64.shortest_zero .toEven hzero]
      decide
    · exact Binary64.le_place hpos
        ((not_tiny_of_toBinary64? hx).resolve_left hpos.ne')
  obtain ⟨d', hread, hvalue⟩ := Binary64.ofText?_documentText hplace
    (Binary64.shortestValue_lt (magnitude_lt_of_ofBinary64? hb))
  refine ⟨d', hread, ?_⟩
  rw [hvalue, negative_of_toBinary64? hx]
  -- Only a zero can lose its sign.
  rcases Nat.eq_zero_or_pos d.mantissa with hzero | hpos
  · rw [shortestValue_of_significand_eq_zero (significand_of_toBinary64?_zero hzero hx)]
    norm_num [toPlaces]
  · rw [isSigned_eq hpos]

theorem shortestValue_of_exactFloat? (hdigits : d.mantissa < 10 ^ 15) (hscale : d.scale ≤ 22)
    (h : d.exactFloat? = some x) : x.shortestValue = |d.value| := by
  obtain ⟨hx, -⟩ := toBinary64?_of_exactFloat? h
  rw [abs_value]
  rcases Nat.eq_zero_or_pos d.mantissa with hzero | hpos
  · have hsignificand := significand_of_toBinary64?_zero hzero hx
    rw [magnitude_eq_zero_iff.mpr hzero, shortestValue_of_significand_eq_zero hsignificand]
  · have hattracts := attracts_of_toBinary64? hpos hdigits hscale hx
    rw [magnitude_value] at hattracts ⊢
    exact Binary64.shortestValue_eq hpos hdigits hscale hattracts

end Decimal

theorem coerce_decimal {s : Settings} {property : String} {v : Json} {d : Decimal}
    (h : Coercion.toDecimal? v = some d) : coerce s property .decimal v = .ok (.decimal d) := by
  rw [coerce_eq_ok]
  refine .inr ⟨?_, congrArg (Option.map PropertyValue.decimal) h⟩
  cases v with
  | null => cases h
  | _ => rfl

/-- A decimal that is shown is taken back as a decimal. It has the same value exactly if it was
shown as a text, or as a number whose shortest digits, rounded to 28 places, are those of the
decimal; and so it is up to 15 digits and 22 places. -/
theorem coerce_render_decimal (s : Settings) (identifier : Handle → String) (property : String)
    (d : Decimal) : ∃ shown d', render? s identifier (.decimal d) = some shown ∧
      coerce s property .decimal shown = .ok (.decimal d') ∧
        (d'.value = d.value ↔
          ∀ x, d.exactFloat? = some x → Decimal.toPlaces x.shortestValue = |d.value|) ∧
        (d.mantissa < 10 ^ 15 → d.scale ≤ 22 → d'.value = d.value) := by
  cases hx : d.exactFloat? with
  | none =>
    obtain ⟨d', hread, hvalue⟩ := d.ofText?_trim_text
    have hshown : d.toJson = .text d.text := by rw [Decimal.toJson, hx]
    refine ⟨.text d.text, d', by rw [render?, hshown], coerce_decimal hread, ?_, fun _ _ => hvalue⟩
    exact ⟨fun _ x hnone => (by cases hnone), fun _ => hvalue⟩
  | some x =>
    obtain ⟨d', hread, hvalue⟩ := Decimal.ofText?_exactFloat hx
    have hshown : d.toJson = .number (.float x) := by rw [Decimal.toJson, hx]
    have hiff : d'.value = d.value ↔ Decimal.toPlaces x.shortestValue = |d.value| := by
      rw [hvalue, d.value_eq_signOf_mul_abs,
        signOf_mul_inj (Decimal.toPlaces_nonneg _) (abs_nonneg _), ← d.value_eq_signOf_mul_abs]
      simp
    refine ⟨.number (.float x), d', by rw [render?, hshown], coerce_decimal hread, ?_, ?_⟩
    · rw [hiff]
      constructor
      · intro hsame y hy
        rw [← Option.some.inj hy]
        exact hsame
      · exact fun hall => hall x rfl
    · intro hdigits hscale
      rw [hiff, Decimal.shortestValue_of_exactFloat? hdigits hscale hx, Decimal.toPlaces_abs_value]

/-- The number next to this decimal is 2 ^ 96, beyond all decimals, so that it is shown as a text.
-/
example :
    Decimal.exactFloat? ⟨false, 79228162514264337593543950330, 0, by decide, by decide⟩ = none :=
  by decide +kernel

def twelveFifty : Decimal := ⟨false, 1250, 2, by decide, by decide⟩

theorem twelveFifty_comes_back : (twelveFifty.mantissa < 10 ^ 15 ∧ twelveFifty.scale ≤ 22) ∧
    ∃ shown d', render? {} (fun _ => "") (.decimal twelveFifty) = some shown ∧
      coerce {} "price" .decimal shown = .ok (.decimal d') ∧ d'.value = twelveFifty.value := by
  have hdigits : twelveFifty.mantissa < 10 ^ 15 := by decide
  have hscale : twelveFifty.scale ≤ 22 := by decide
  obtain ⟨shown, d', hshown, hcoerce, -, hsame⟩ :=
    coerce_render_decimal {} (fun _ => "") "price" twelveFifty
  exact ⟨⟨hdigits, hscale⟩, shown, d', hshown, hcoerce, hsame hdigits hscale⟩

/-- The number of words of 64 bits: a floating-point number is exactly this, but not by its shortest
digits. -/
def wordCount : Decimal := ⟨false, 2 ^ 64, 0, by decide, Decimal.zero.scale_le⟩

theorem wordCount_comes_back_rounded : ∃ shown d', render? {} (fun _ => "") (.decimal wordCount) =
    some shown ∧ coerce {} "price" .decimal shown = .ok (.decimal d') ∧
      d'.value = 18446744073709552000 ∧ d'.value ≠ wordCount.value := by
  have hback : wordCount.exactFloat?.any (fun x => (Decimal.ofText? x.documentText).any fun d =>
      decide (d.toInt? = some 18446744073709552000)) = true := by
    decide +kernel
  have hexact : wordCount.toInt? = some 18446744073709551616 := by decide +kernel
  cases hx : wordCount.exactFloat? with
  | none => rw [hx] at hback; cases hback
  | some x =>
    rw [hx, Option.any_some] at hback
    cases hread : Decimal.ofText? x.documentText with
    | none => rw [hread] at hback; cases hback
    | some d' =>
      rw [hread, Option.any_some] at hback
      have hvalue : d'.value = 18446744073709552000 := by
        exact_mod_cast Decimal.toInt?_eq_some.mp (of_decide_eq_true hback)
      have hcount : wordCount.value = 18446744073709551616 := by
        exact_mod_cast Decimal.toInt?_eq_some.mp hexact
      have hshown : wordCount.toJson = .number (.float x) := by rw [Decimal.toJson, hx]
      refine ⟨.number (.float x), d', by rw [render?, hshown], coerce_decimal hread, hvalue, ?_⟩
      rw [hvalue, hcount]
      norm_num

end Fieldwise
