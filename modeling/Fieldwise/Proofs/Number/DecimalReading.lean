import Fieldwise.Proofs.Number.PlainReading

/-!
What literals are read as. Their exponents move the point of what their bases are read as: to the
right without loss, to the left with a rounding to 28 places. So a literal is read exactly if both
its base and its value can be held.
-/

namespace Fieldwise.Decimal

variable {l : Literal}

/-! ### Exponents -/

theorem exponentOf?_numeral (e : WrittenExponent) :
    exponentOf? e.numeral = if Text.numeralValue e.digits < 2 ^ 32 then some e.value else none := by
  have hbounded (plus : Bool) :
      (Text.naturalOf? (Json.plusSign plus ++ e.digits)).filter (· < 2 ^ 32) =
        if Text.numeralValue e.digits < 2 ^ 32 then some (Text.numeralValue e.digits) else none := by
    rw [Text.naturalOf?_digits plus e.nonempty e.decimal]
    simp [Option.filter]
  have hunsigned : (Text.naturalOf? e.digits).filter (· < 2 ^ 32) =
      if Text.numeralValue e.digits < 2 ^ 32 then some (Text.numeralValue e.digits) else none :=
    hbounded false
  unfold WrittenExponent.numeral WrittenExponent.value
  rcases hsign : e.sign with _ | _ | _
  · show exponentOf? e.digits = _
    unfold exponentOf?
    split
    · next h => exact absurd h (Text.ne_minus_cons e.decimal _)
    · simp only [hunsigned]
      split <;> simp
  · show ((Text.naturalOf? (Json.plusSign true ++ e.digits)).filter (· < 2 ^ 32)).map Int.ofNat = _
    rw [hbounded]
    split <;> simp
  · show ((Text.naturalOf? e.digits).filter (· < 2 ^ 32)).map (fun n => -(n : ℤ)) = _
    rw [hunsigned]
    split <;> simp

theorem isMark_mark (e : WrittenExponent) : (e.mark == 'e' || e.mark == 'E') = true := by
  rcases e.isMark with h | h <;> rw [h] <;> rfl

theorem not_isMark_of_mem_baseChars {c : Char} (h : c ∈ l.baseChars) :
    (c == 'e' || c == 'E') = false := by
  rcases Literal.of_mem_baseChars h with rfl | rfl | rfl | h
  · rfl
  · rfl
  · rfl
  · rw [Bool.or_eq_false_iff, beq_eq_false_iff_ne, beq_eq_false_iff_ne]
    constructor <;> rintro rfl <;> cases h

theorem ofScientific?_append (e : WrittenExponent) :
    ofScientific? (l.baseChars ++ e.chars) =
      (ofPlain? l.baseChars).bind fun d => (exponentOf? e.numeral).bind d.shifted? := by
  have hrun : ∀ c ∈ l.baseChars, (!(c == 'e' || c == 'E')) = true := fun c hc => by
    rw [not_isMark_of_mem_baseChars hc]
    rfl
  have hmark : ∀ c ∈ e.chars.head?, (!(c == 'e' || c == 'E')) = false := by
    rintro c ⟨⟩
    rw [isMark_mark]
    rfl
  unfold ofScientific?
  simp only [Text.takeWhile_append_of_head hrun hmark, List.dropWhile_append_of_pos hrun]
  unfold WrittenExponent.chars
  rw [List.dropWhile_cons_of_neg (by rw [isMark_mark]; decide)]
  rfl

theorem ofScientific?_baseChars (l : Literal) : ofScientific? l.baseChars = none := by
  have hnone : l.baseChars.dropWhile (fun c => !(c == 'e' || c == 'E')) = [] :=
    List.dropWhile_eq_nil_iff.mpr fun c hc => by
      rw [not_isMark_of_mem_baseChars hc]
      rfl
  unfold ofScientific?
  simp only [hnone]

/-- A literal is its base, with the point moved by an exponent of 32 bits if there is one. -/
theorem ofText?_chars (l : Literal) : ofText? (String.ofList l.chars) =
    match l.exponent with
    | none => ofPlain? l.baseChars
    | some e => (ofPlain? l.baseChars).bind fun d =>
        if Text.numeralValue e.digits < 2 ^ 32 then d.shifted? e.value else none := by
  unfold ofText? Literal.chars Literal.exponentChars
  rw [String.toList_ofList]
  cases l.exponent with
  | none =>
    simp only [List.append_nil]
    rw [ofScientific?_baseChars]
    cases ofPlain? l.baseChars <;> rfl
  | some e =>
    have hplain : ofPlain? (l.baseChars ++ e.chars) = none := by
      have hmem : e.mark ∈ l.baseChars ++ e.chars := by simp [WrittenExponent.chars]
      rcases e.isMark with h | h <;> rw [h] at hmem
      · exact ofPlain?_eq_none_of_mem hmem (by decide) (by decide)
      · exact ofPlain?_eq_none_of_mem hmem (by decide) (by decide)
    show (ofPlain? (l.baseChars ++ e.chars) <|> ofScientific? (l.baseChars ++ e.chars)) = _
    rw [hplain, ofScientific?_append, exponentOf?_numeral]
    apply congrArg (ofPlain? l.baseChars).bind
    funext d
    split <;> rfl

/-! ### Moving the point -/

def toPlaces (q : ℚ) : ℚ := ⌊q * 10 ^ 28 + 1 / 2⌋₊ / 10 ^ 28

theorem toPlaces_div_pow (mantissa : ℕ) {scale : ℕ} (hscale : scale ≤ 28) :
    toPlaces (mantissa / 10 ^ scale) = mantissa / 10 ^ scale := by
  have hwhole : (mantissa / 10 ^ scale : ℚ) * 10 ^ 28 = (mantissa * 10 ^ (28 - scale) : ℕ) := by
    rw [← Nat.add_sub_of_le hscale, pow_add, Nat.add_sub_cancel_left, div_mul_eq_mul_div,
      ← mul_assoc, mul_right_comm, mul_div_cancel_right₀ _ (by positivity)]
    push_cast
    rfl
  have hfloor : ⌊((mantissa * 10 ^ (28 - scale) : ℕ) : ℚ) + 1 / 2⌋₊ =
      mantissa * 10 ^ (28 - scale) := by
    rw [add_comm, Nat.floor_add_natCast (by norm_num), Nat.floor_eq_zero.mpr (by norm_num),
      Nat.zero_add]
  rw [toPlaces, hwhole, hfloor, ← hwhole, mul_div_cancel_right₀ _ (by positivity)]

variable {d d' : Decimal} {n : ℕ}

theorem value_of_raised? (h : d.raised? n = some d') : n ≤ 28 ∧ d'.value = d.value * 10 ^ n := by
  have hscale := d.scale_le
  unfold raised? at h
  split at h
  · next hn =>
    refine ⟨by omega, ?_⟩
    rw [value_of_make? h, value, magnitude_value, ← Nat.add_sub_of_le hn, Nat.add_sub_cancel_left,
      pow_add]
    field_simp
  · next hn =>
    split at h
    · next hle =>
      refine ⟨hle, ?_⟩
      rw [value_of_make? h, value, magnitude_value, ← Nat.add_sub_of_le (by omega : d.scale ≤ n),
        Nat.add_sub_cancel_left, pow_add]
      push_cast
      field_simp
    · cases h

/-- Moving the point to the left rounds to 28 places. -/
theorem value_of_lowered? (h : d.lowered? n = some d') :
    d'.value = signOf d.negative * toPlaces (d.magnitude.value / 10 ^ n) := by
  have hlowered : d.magnitude.value / 10 ^ n = d.mantissa / 10 ^ (d.scale + n) := by
    rw [magnitude_value, div_div, ← pow_add]
  unfold lowered? at h
  rw [hlowered]
  split at h
  · next hscale =>
    obtain rfl := Option.some.inj h
    rw [toPlaces_div_pow _ hscale, value, magnitude_value]
  · next hscale =>
    split at h
    · obtain rfl := Option.some.inj h
      have hcut : (⟨d.mantissa, 10 ^ (d.scale + n - 28)⟩ : Fraction).value =
          (d.mantissa / 10 ^ (d.scale + n) : ℚ) * 10 ^ 28 := by
        have hsum : d.scale + n = d.scale + n - 28 + 28 := by omega
        rw [Fraction.value, eq_comm, div_mul_eq_mul_div]
        conv_lhs => rw [hsum, pow_add]
        push_cast
        exact mul_div_mul_right _ _ (by positivity)
      have hmantissa : (d.dropDigits (d.scale + n - 28)).mantissa =
          ⌊(d.mantissa / 10 ^ (d.scale + n) : ℚ) * 10 ^ 28 + 1 / 2⌋₊ := by
        rw [← hcut]
        exact Fraction.roundHalfUp_eq (Nat.pow_pos (by decide))
      rw [value, magnitude_value, toPlaces, ← hmantissa]
      rfl
    · cases h

/-- What a decimal can hold is not rounded. -/
theorem value_of_lowered?_of_isDecimal (h : d.lowered? n = some d')
    (hdecimal : IsDecimal (d.value / 10 ^ n)) : d'.value = d.value / 10 ^ n := by
  rw [value_of_lowered? h]
  have hnonneg : 0 ≤ d.magnitude.value / 10 ^ n :=
    div_nonneg d.magnitude.value_nonneg (by positivity)
  rw [value, mul_div_assoc] at hdecimal ⊢
  obtain ⟨mantissa, scale, -, hscale, hvalue⟩ := (isDecimal_signOf_mul _ hnonneg).mp hdecimal
  rw [hvalue, toPlaces_div_pow mantissa hscale]

/-! ### Literals -/

/-- A base that is read and becomes a decimal further to the right is one itself: if it has no
places it is the number before the point. -/
theorem isDecimal_base_of_lowered {n : ℕ} (hread : ofPlain? l.baseChars = some d)
    (hdecimal : IsDecimal (l.base / 10 ^ n)) : IsDecimal l.base := by
  have hwhole := whole_lt_of_ofPlain? hread
  have hplaces : (Text.numeralValue (l.places.getD []) : ℚ) / 10 ^ (l.places.getD []).length < 1 := by
    rw [div_lt_one (by positivity)]
    exact_mod_cast Text.numeralValue_lt l.decimalPlaces
  rw [base_eq] at hdecimal ⊢
  rw [mul_div_assoc, isDecimal_signOf_mul _ (by positivity)] at hdecimal
  rw [isDecimal_signOf_mul _ (by positivity)]
  obtain ⟨mantissa, scale, hmantissa, hscale, hvalue⟩ := hdecimal
  rw [div_eq_div_iff (by positivity) (by positivity)] at hvalue
  generalize Text.numeralValue l.whole = whole at hwhole hvalue ⊢
  have hfraction : 0 ≤ (Text.numeralValue (l.places.getD []) : ℚ) /
      10 ^ (l.places.getD []).length := by positivity
  generalize (Text.numeralValue (l.places.getD []) : ℚ) / 10 ^ (l.places.getD []).length = fraction
    at hplaces hvalue hfraction ⊢
  rcases Nat.le_total n scale with hle | hle
  · refine ⟨mantissa, scale - n, hmantissa, by omega, ?_⟩
    rw [eq_div_iff (by positivity)]
    rw [← Nat.add_sub_of_le hle, pow_add, ← mul_assoc, mul_right_comm] at hvalue
    exact mul_right_cancel₀ (by positivity) hvalue
  · have hnat : whole + fraction = (mantissa * 10 ^ (n - scale) : ℕ) := by
      rw [← Nat.add_sub_of_le hle, pow_add, mul_comm (10 ^ scale), ← mul_assoc] at hvalue
      push_cast
      exact mul_right_cancel₀ (by positivity) hvalue
    have hsame : whole = mantissa * 10 ^ (n - scale) := by
      have hlow : whole ≤ mantissa * 10 ^ (n - scale) := by
        have hcast : (whole : ℚ) ≤ (mantissa * 10 ^ (n - scale) : ℕ) := by linarith
        exact_mod_cast hcast
      have hhigh : mantissa * 10 ^ (n - scale) < whole + 1 := by
        have hcast : ((mantissa * 10 ^ (n - scale) : ℕ) : ℚ) < (whole + 1 : ℕ) := by
          push_cast at hnat ⊢
          linarith
        exact_mod_cast hcast
      omega
    exact ⟨whole, 0, hwhole, by decide, by rw [hnat, hsame, pow_zero, div_one]⟩

/-- A literal is read exactly if both its base and its value can be held. -/
theorem value_of_ofText?_iff (h : ofText? (String.ofList l.chars) = some d) :
    d.value = l.value ↔ IsDecimal l.base ∧ IsDecimal l.value := by
  rw [ofText?_chars] at h
  unfold Literal.value Literal.power
  cases hl : l.exponent with
  | none =>
    simp only [hl] at h
    simp only [zpow_zero, mul_one, and_self]
    constructor
    · exact fun hvalue => ⟨d, hvalue⟩
    · intro hdecimal
      obtain ⟨d', hd', hvalue⟩ := ofPlain?_of_isDecimal hdecimal
      obtain rfl := Option.some.inj (hd'.symm.trans h)
      exact hvalue
  | some e =>
    simp only [hl, Option.bind_eq_some_iff] at h
    obtain ⟨b, hread, h⟩ := h
    have hexact : IsDecimal l.base → b.value = l.base := by
      intro hdecimal
      obtain ⟨b', hb', hvalue⟩ := ofPlain?_of_isDecimal hdecimal
      obtain rfl := Option.some.inj (hb'.symm.trans hread)
      exact hvalue
    split at h
    · show d.value = l.base * 10 ^ e.value ↔ _ ∧ IsDecimal (l.base * 10 ^ e.value)
      generalize e.value = power at h ⊢
      cases power with
      | ofNat n =>
        obtain ⟨-, hraised⟩ := value_of_raised? h
        rw [Int.ofNat_eq_natCast, zpow_natCast, hraised]
        constructor
        · intro hvalue
          have hbase : b.value = l.base := mul_right_cancel₀ (by positivity) hvalue
          exact ⟨⟨b, hbase⟩, d, by rw [hraised, hbase]⟩
        · rintro ⟨hdecimal, -⟩
          rw [hexact hdecimal]
      | negSucc n =>
        rw [zpow_negSucc, ← div_eq_mul_inv]
        constructor
        · intro hvalue
          have hdecimal : IsDecimal (l.base / 10 ^ (n + 1)) := ⟨d, hvalue⟩
          exact ⟨isDecimal_base_of_lowered hread hdecimal, hdecimal⟩
        · rintro ⟨hbase, hdecimal⟩
          rw [← hexact hbase] at hdecimal ⊢
          exact value_of_lowered?_of_isDecimal h hdecimal
    · cases h

theorem exists_raised? (hn : n ≤ 28) (hroom : |d.value * 10 ^ n| < 2 ^ 96) :
    ∃ d', d.raised? n = some d' := by
  rcases Nat.lt_or_ge d.scale n with hlt | hle
  · have hmantissa : d.mantissa * 10 ^ (n - d.scale) < 2 ^ 96 := by
      have hvalue : |d.value * 10 ^ n| = (d.mantissa * 10 ^ (n - d.scale) : ℕ) := by
        rw [abs_mul, abs_value, magnitude_value, abs_of_nonneg (by positivity),
          ← Nat.add_sub_of_le hlt.le, Nat.add_sub_cancel_left, pow_add]
        push_cast
        field_simp
      rw [hvalue] at hroom
      exact_mod_cast hroom
    obtain ⟨d', hd', -⟩ := make?_of_lt d.negative hmantissa (Nat.zero_le 28)
    exact ⟨d', by rw [raised?, if_neg (by omega), if_pos hn, hd']⟩
  · obtain ⟨d', hd', -⟩ := make?_of_lt d.negative d.mantissa_lt ((Nat.sub_le _ n).trans d.scale_le)
    exact ⟨d', by rw [raised?, if_pos hle, hd']⟩

theorem exists_lowered? (d : Decimal) (hn : n ≤ 28) : ∃ d', d.lowered? n = some d' := by
  unfold lowered?
  by_cases hscale : d.scale + n ≤ 28
  · rw [dif_pos hscale]
    exact ⟨_, rfl⟩
  · rw [dif_neg hscale, if_pos hn]
    exact ⟨_, rfl⟩

theorem toPlaces_abs_value (d : Decimal) : toPlaces |d.value| = |d.value| := by
  rw [abs_value, magnitude_value, toPlaces_div_pow _ d.scale_le]

theorem value_eq_toPlaces (h : d.value = l.value) :
    d.value = signOf l.negative * toPlaces |l.value| := by
  rw [← h, toPlaces_abs_value, h]
  exact l.value_eq_signOf_mul_abs

/-- A literal with a base that can be held is read as its value, rounded to 28 places, if the
exponent is at most 28 in size and the result has room. -/
theorem ofText?_of_isDecimal_base (hbase : IsDecimal l.base) (hlow : -28 ≤ l.power)
    (hhigh : l.power ≤ 28) (hroom : |l.value| < 2 ^ 96) : ∃ d,
      ofText? (String.ofList l.chars) = some d ∧
        d.value = signOf l.negative * toPlaces |l.value| := by
  obtain ⟨b, hread, hvalue⟩ := ofPlain?_of_isDecimal hbase
  rw [ofText?_chars]
  cases hl : l.exponent with
  | none =>
    have hsame : l.value = b.value := by simp [Literal.value, Literal.power, hl, hvalue]
    exact ⟨b, hread, value_eq_toPlaces hsame.symm⟩
  | some e =>
    have hpower : l.power = e.value := by simp [Literal.power, hl]
    have hsmall : Text.numeralValue e.digits < 2 ^ 32 := by
      have hnatAbs : Text.numeralValue e.digits = e.value.natAbs := by
        unfold WrittenExponent.value
        split <;> simp
      omega
    have hscaled : l.value = b.value * 10 ^ e.value := by rw [Literal.value, hpower, hvalue]
    simp only [hread, Option.bind_some, if_pos hsmall]
    rw [hpower] at hlow hhigh
    generalize e.value = power at hlow hhigh hscaled ⊢
    cases power with
    | ofNat n =>
      rw [Int.ofNat_eq_natCast, zpow_natCast] at hscaled
      obtain ⟨d, hd⟩ := exists_raised? (d := b) (Int.ofNat_le.mp hhigh) (hscaled ▸ hroom)
      exact ⟨d, hd, value_eq_toPlaces ((value_of_raised? hd).2.trans hscaled.symm)⟩
    | negSucc n =>
      rw [zpow_negSucc, ← div_eq_mul_inv] at hscaled
      obtain ⟨d, hd⟩ := exists_lowered? b (n := n + 1) (by omega)
      refine ⟨d, hd, ?_⟩
      have hmagnitude : |l.value| = b.magnitude.value / 10 ^ (n + 1) := by
        rw [hscaled, abs_div, abs_value, abs_of_nonneg (by positivity)]
      rw [value_of_lowered? hd, ← hmagnitude]
      -- The sign of the base is that of the literal, unless nothing is left to sign.
      have hsign : signOf b.negative * |l.value| = signOf l.negative * |l.value| := by
        rw [← l.value_eq_signOf_mul_abs, hmagnitude, hscaled, value, mul_div_assoc]
      rcases ((signOf_mul_inj (abs_nonneg _) (abs_nonneg _)).mp hsign).2 with hsame | hzero
      · rw [hsame]
      · have htoPlaces : toPlaces 0 = 0 := by simpa using toPlaces_div_pow 0 (Nat.zero_le 28)
        rw [hzero, htoPlaces, mul_zero, mul_zero]

end Fieldwise.Decimal
