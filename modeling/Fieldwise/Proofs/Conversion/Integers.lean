import Fieldwise.Proofs.Conversion.Returning
import Fieldwise.Proofs.Number.DecimalReading

/-!
Which numbers are taken for integers. A JSON number is if it is a whole number of 64 bits, in
whatever form it comes. A decimal literal in a text is read as a decimal first, which rounds, and it
is taken for what it says exactly if it can be held before the point is moved and afterwards.
-/

namespace Fieldwise

def Json.Number.value : Json.Number → ℚ
  | .integer i => i
  | .float x => x.value

theorem Json.Number.toInt?_eq_some {n : Json.Number} {i : ℤ} :
    n.toInt? = some i ↔ n.value = i := by
  cases n with
  | integer j =>
    show some j = some i ↔ (j : ℚ) = i
    rw [Option.some.injEq, Int.cast_inj]
  | float x => exact Binary64.toInt?_eq_some

theorem Decimal.value_ofInt64 (i : Int64) : (ofInt64 i).value = i.toInt := by
  apply toInt?_eq_some.mp
  have hwhole : (ofInt64 i).mantissa % 10 ^ (ofInt64 i).scale = 0 := Nat.mod_one _
  rw [toInt?, if_pos hwhole]
  show some (if decide (i.toInt < 0) then -((i.toInt.natAbs / 1 : ℕ) : ℤ)
    else ((i.toInt.natAbs / 1 : ℕ) : ℤ)) = _
  rw [Nat.div_one, Option.some.injEq]
  split
  · next h =>
    have hneg : i.toInt < 0 := of_decide_eq_true h
    omega
  · next h =>
    have hnonneg : ¬i.toInt < 0 := fun hneg => h (decide_eq_true hneg)
    omega

theorem isDecimal_toInt (i : Int64) : IsDecimal i.toInt := ⟨_, Decimal.value_ofInt64 i⟩

/-! ### Numerals of integers -/

namespace Text

theorem integerOf?_eq_none_of_mem {cs : List Char} {c : Char} (hc : c ∈ cs)
    (hother : ¬(c = '-' ∨ c = '+' ∨ c.isDigit)) : integerOf? cs = none := by
  simp only [not_or, Bool.not_eq_true] at hother
  obtain ⟨hminus, hplus, hdigit⟩ := hother
  have hall {digits : List Char} (hmem : c ∈ digits) :
      (!digits.isEmpty && digits.all Char.isDigit) = false := by
    rw [Bool.and_eq_false_iff, List.all_eq_false]
    exact .inr ⟨c, hmem, by simp [hdigit]⟩
  unfold integerOf?
  split
  · rw [hall (List.mem_of_ne_of_mem hminus hc)]
    rfl
  · simp only [naturalOf?]
    split
    · rw [hall (List.mem_of_ne_of_mem hplus hc)]
      rfl
    · rw [hall hc]
      rfl

theorem integerOf?_signed (sign : Option Bool) {digits : List Char} (hne : digits ≠ [])
    (hdigits : ∀ c ∈ digits, c.isDigit) : integerOf? (signChars sign ++ digits) =
      some (if sign = some true then -(numeralValue digits : ℤ) else numeralValue digits) := by
  rcases sign with _ | _ | _
  · show integerOf? digits = _
    unfold integerOf?
    split
    · next rest => exact absurd rfl (ne_minus_cons hdigits rest)
    · exact congrArg (Option.map Int.ofNat) (naturalOf?_digits false hne hdigits)
  · exact congrArg (Option.map Int.ofNat) (naturalOf?_digits true hne hdigits)
  · have hall : (!digits.isEmpty && digits.all Char.isDigit) = true := by
      simpa [hne] using hdigits
    show integerOf? ('-' :: digits) = _
    rw [integerOf?, if_pos hall]
    rfl

end Text

theorem Literal.eq_of_integerOf? {l : Literal} {i : ℤ} (h : Text.integerOf? l.chars = some i) :
    l.base = i ∧ l.value = i := by
  have hother {c : Char} (hc : c ∈ l.chars) : c = '-' ∨ c = '+' ∨ c.isDigit := by
    by_contra hother
    rw [Text.integerOf?_eq_none_of_mem hc hother] at h
    cases h
  have hexponent : l.exponent = none := by
    cases hl : l.exponent with
    | none => rfl
    | some e =>
      have hmem := hother (c := e.mark) (by simp [chars, exponentChars, hl, WrittenExponent.chars])
      rcases e.isMark with hmark | hmark <;> rw [hmark] at hmem <;> exact absurd hmem (by decide)
  have hplaces : l.places = none := by
    cases hl : l.places with
    | none => rfl
    | some digits =>
      have hmem := hother (c := '.') (by simp [chars, baseChars, pointed, hl])
      exact absurd hmem (by decide)
  have hwhole : l.whole ≠ [] := by simpa [hplaces] using l.nonempty
  have hchars : l.chars = signChars l.sign ++ l.whole := by
    simp [chars, baseChars, pointed, exponentChars, hplaces, hexponent]
  have hbase : l.base = i := by
    rw [hchars, Text.integerOf?_signed l.sign hwhole l.decimalWhole] at h
    obtain rfl := Option.some.inj h
    have hdigits : l.base = signOf l.negative * Text.numeralValue l.whole := by
      simp [base, digits, hplaces]
    rw [hdigits, negative]
    rcases l.sign with _ | _ | _ <;> simp
  refine ⟨hbase, ?_⟩
  simp [value, power, hexponent, hbase]

/-! ### Taken for an integer -/

namespace Coercion

theorem int64?_eq_some {n : ℤ} {i : Int64} : int64? n = some i ↔ n = i.toInt := by
  constructor
  · intro h
    unfold int64? at h
    split at h
    · next hrange =>
      obtain rfl := Option.some.inj h
      exact (Int64.toInt_ofInt_of_le hrange.1 hrange.2).symm
    · cases h
  · rintro rfl
    exact int64?_toInt i

theorem integerOfText?_cases {text : String} {i : Int64} (h : integerOfText? text = some i) :
    Text.integerOf? text.toList = some i.toInt ∨
      ∃ d, Decimal.ofText? text = some d ∧ d.value = i.toInt := by
  unfold integerOfText? at h
  rw [Option.orElse_eq_orElse, Option.orElse_eq_or] at h
  rcases Option.or_eq_some_iff.mp h with hwritten | ⟨-, hdecimal⟩
  · obtain ⟨n, hn, hi⟩ := Option.bind_eq_some_iff.mp hwritten
    exact .inl (int64?_eq_some.mp hi ▸ hn)
  · obtain ⟨d, hd, hdecimal⟩ := Option.bind_eq_some_iff.mp hdecimal
    obtain ⟨n, hn, hi⟩ := Option.bind_eq_some_iff.mp hdecimal
    exact .inr ⟨d, hd, Decimal.toInt?_eq_some.mp (int64?_eq_some.mp hi ▸ hn)⟩

end Coercion

variable {s : Settings} {property : String} {i : Int64}

theorem coerce_integer_iff {v : Json} : coerce s property .integer v = .ok (.integer i) ↔
    Coercion.toInteger? v = some i := by
  rw [coerce_eq_ok]
  constructor
  · rintro (⟨-, h⟩ | ⟨-, h⟩)
    · cases h
    · obtain ⟨j, hj, hi⟩ := Option.map_eq_some_iff.mp h
      obtain rfl := PropertyValue.integer.inj hi
      exact hj
  · intro h
    refine .inr ⟨?_, congrArg (Option.map PropertyValue.integer) h⟩
    cases v with
    | null => cases h
    | _ => rfl

/-- Numbers are taken for the integers that they are. A literal in a text that is taken for an
integer is that integer exactly if its base and its value can be held by decimals. -/
theorem coerce_integer_exact_iff (s : Settings) (property : String) (i : Int64) :
    (∀ n : Json.Number, coerce s property .integer (.number n) = .ok (.integer i) ↔
      n.value = i.toInt) ∧
    ∀ (l : Literal) (text : String), Text.StandsIn l.chars text.toList →
      coerce s property .integer (.text text) = .ok (.integer i) →
        (l.value = i.toInt ↔ IsDecimal l.base ∧ IsDecimal l.value) := by
  constructor
  · intro n
    rw [coerce_integer_iff, ← Json.Number.toInt?_eq_some]
    show n.toInt?.bind Coercion.int64? = some i ↔ _
    simp only [Option.bind_eq_some_iff, Coercion.int64?_eq_some, exists_eq_right]
  · intro l text htext hcoerce
    have htrim : Text.trim text = String.ofList l.chars :=
      congrArg String.ofList (l.tight_chars.trimChars_eq htext)
    have hread : Coercion.integerOfText? (String.ofList l.chars) = some i :=
      htrim ▸ coerce_integer_iff.mp hcoerce
    rcases Coercion.integerOfText?_cases hread with hinteger | ⟨d, hd, hvalue⟩
    · rw [String.toList_ofList] at hinteger
      obtain ⟨hbase, hvalue⟩ := Literal.eq_of_integerOf? hinteger
      rw [hbase, hvalue]
      simp [isDecimal_toInt]
    · rw [← Decimal.value_of_ofText?_iff hd, hvalue]
      exact eq_comm

/-- One with a bit in the 29th place. -/
def oneAndABit : Literal where
  sign := none
  whole := ['1']
  places := some (List.replicate 28 '0' ++ ['1'])
  exponent := none
  decimalWhole := List.all_eq_true.mp rfl
  decimalPlaces := List.all_eq_true.mp rfl
  nonempty := by decide

/-- What a decimal has no room for is dropped before it is asked whether there is a fraction. -/
theorem oneAndABit_taken_for_one :
    Text.StandsIn oneAndABit.chars "1.00000000000000000000000000001".toList ∧
      coerce {} "quantity" .integer (.text "1.00000000000000000000000000001") =
        .ok (.integer 1) ∧ oneAndABit.value ≠ (1 : Int64).toInt := by
  refine ⟨⟨[], [], by simp, by simp, by decide +kernel⟩,
    coerce_integer_iff.mpr (by decide +kernel), ?_⟩
  have hdigits : Text.numeralValue oneAndABit.digits = 10 ^ 29 + 1 := by decide +kernel
  have hone : (1 : Int64).toInt = 1 := by decide
  show signOf false * ((Text.numeralValue oneAndABit.digits : ℚ) / 10 ^ 29) * 10 ^ (0 : ℤ) ≠ _
  rw [hdigits, hone]
  norm_num

/-- Fifteen, with the point moved. -/
def fifteen : Literal where
  sign := none
  whole := ['1']
  places := some ['5', '0']
  exponent := some ⟨'e', none, ['1'], .inl rfl, by decide, List.all_eq_true.mp rfl⟩
  decimalWhole := List.all_eq_true.mp rfl
  decimalPlaces := List.all_eq_true.mp rfl
  nonempty := by decide

theorem fifteen_exact : Text.StandsIn fifteen.chars " 1.50e1 ".toList ∧
    coerce {} "quantity" .integer (.text " 1.50e1 ") = .ok (.integer 15) ∧
      (fifteen.value = (15 : Int64).toInt ↔ IsDecimal fifteen.base ∧ IsDecimal fifteen.value) := by
  have hstands : Text.StandsIn fifteen.chars " 1.50e1 ".toList :=
    ⟨[' '], [' '], List.all_eq_true.mp rfl, List.all_eq_true.mp rfl, by decide +kernel⟩
  have hcoerce : coerce {} "quantity" .integer (.text " 1.50e1 ") = .ok (.integer 15) :=
    coerce_integer_iff.mpr (by decide +kernel)
  exact ⟨hstands, hcoerce,
    (coerce_integer_exact_iff {} "quantity" 15).2 fifteen " 1.50e1 " hstands hcoerce⟩

end Fieldwise
