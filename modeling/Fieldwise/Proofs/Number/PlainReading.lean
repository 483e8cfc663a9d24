import Fieldwise.Number.DecimalText
import Fieldwise.Proofs.Number.Literals

/-!
What plain numerals are read as. A base is read exactly if there is a decimal of its value: digits
are dropped only where they do not fit, and those that a decimal of the value has no room for are
zeros.
-/

namespace Fieldwise

/-- There is a decimal of this value. -/
def IsDecimal (q : ℚ) : Prop := ∃ d : Decimal, d.value = q

namespace Decimal

theorem abs_value (d : Decimal) : |d.value| = d.magnitude.value := by
  have hsign : |signOf d.negative| = 1 := by cases d.negative <;> simp
  rw [value, abs_mul, hsign, one_mul, abs_of_nonneg d.magnitude.value_nonneg]

theorem value_of_make? {negative : Bool} {mantissa scale : ℕ} {d : Decimal}
    (h : make? negative mantissa scale = some d) :
    d.value = signOf negative * (mantissa / 10 ^ scale) := by
  unfold make? at h
  split at h
  · obtain rfl := Option.some.inj h
    rw [value, magnitude_value]
    cases negative with
    | false => rfl
    | true =>
      show signOf (mantissa != 0) * _ = _
      by_cases hzero : mantissa = 0
      · simp [hzero]
      · rw [bne_iff_ne.mpr hzero]
  · cases h

theorem make?_of_lt (negative : Bool) {mantissa scale : ℕ} (hmantissa : mantissa < 2 ^ 96)
    (hscale : scale ≤ 28) : ∃ d, make? negative mantissa scale = some d ∧
      d.value = signOf negative * (mantissa / 10 ^ scale) := by
  obtain ⟨d, hd⟩ : ∃ d, make? negative mantissa scale = some d := by
    unfold make?
    rw [dif_pos ⟨hmantissa, hscale⟩]
    exact ⟨_, rfl⟩
  exact ⟨d, hd, value_of_make? hd⟩

end Decimal

theorem isDecimal_signOf_mul (negative : Bool) {q : ℚ} (hq : 0 ≤ q) :
    IsDecimal (signOf negative * q) ↔
      ∃ mantissa scale : ℕ, mantissa < 2 ^ 96 ∧ scale ≤ 28 ∧ q = mantissa / 10 ^ scale := by
  constructor
  · rintro ⟨d, hd⟩
    refine ⟨d.mantissa, d.scale, d.mantissa_lt, d.scale_le, ?_⟩
    rw [Decimal.value, signOf_mul_inj d.magnitude.value_nonneg hq] at hd
    rw [← hd.1, Decimal.magnitude_value]
  · rintro ⟨mantissa, scale, hmantissa, hscale, rfl⟩
    obtain ⟨d, -, hd⟩ := Decimal.make?_of_lt negative hmantissa hscale
    exact ⟨d, hd⟩

theorem isDecimal_iff_of_nonneg {q : ℚ} (hq : 0 ≤ q) : IsDecimal q ↔
    ∃ mantissa scale : ℕ, mantissa < 2 ^ 96 ∧ scale ≤ 28 ∧ q = mantissa / 10 ^ scale := by
  have hsigned := isDecimal_signOf_mul false hq
  rwa [signOf_false, one_mul] at hsigned

namespace Decimal.Reading

/-! ### Digits -/

/-- What has been read with the digits that follow, as one number without sign. -/
def total (r : Reading) (digits : List Char) : ℚ :=
  (r.mantissa * 10 ^ digits.length + Text.numeralValue digits : ℕ) / 10 ^ (r.scale + digits.length)

/-- The reading after one more place. -/
def place (r : Reading) (c : Char) : Reading :=
  { r with mantissa := 10 * r.mantissa + Text.digitValue c, scale := r.scale + 1,
           digitSeen := true }

variable {r : Reading} {c : Char} {digits : List Char}

theorem total_nonneg (r : Reading) (digits : List Char) : 0 ≤ r.total digits := by
  unfold total
  positivity

theorem total_place (r : Reading) (c : Char) (digits : List Char) :
    (r.place c).total digits = r.total (c :: digits) := by
  have hnum : (10 * r.mantissa + Text.digitValue c) * 10 ^ digits.length + Text.numeralValue digits
      = r.mantissa * 10 ^ (digits.length + 1) + Text.numeralValue (c :: digits) := by
    rw [Text.numeralValue_cons, pow_succ]
    ring
  have hden : r.scale + 1 + digits.length = r.scale + (digits.length + 1) := by omega
  show ((_ : ℕ) : ℚ) / 10 ^ (r.scale + 1 + digits.length) = _
  rw [hden]
  exact congrArg (fun n : ℕ => (n : ℚ) / _) hnum

/-- Places for which a number of fewer places has no room are zeros. -/
theorem forall_zero_of_scale_le {mantissa scale : ℕ} (hdigits : ∀ c ∈ digits, c.isDigit)
    (htotal : r.total digits = mantissa / 10 ^ scale) (hscale : scale ≤ r.scale) :
    ∀ c ∈ digits, c = '0' := by
  apply (Text.numeralValue_eq_zero hdigits).mp
  have hlt := Text.numeralValue_lt hdigits
  rw [total, div_eq_div_iff (by positivity) (by positivity)] at htotal
  have hcross : (r.mantissa * 10 ^ digits.length + Text.numeralValue digits) * 10 ^ scale =
      mantissa * 10 ^ (r.scale + digits.length) := by exact_mod_cast htotal
  obtain ⟨more, hmore⟩ := Nat.exists_eq_add_of_le hscale
  rw [hmore, show scale + more + digits.length = more + digits.length + scale by omega,
    pow_add _ (more + _), ← mul_assoc] at hcross
  have hnum := Nat.eq_of_mul_eq_mul_right (by positivity) hcross
  rw [pow_add, ← mul_assoc] at hnum
  have hdvd : 10 ^ digits.length ∣ Text.numeralValue digits := by
    rw [← Nat.dvd_add_right (Dvd.intro_left r.mantissa rfl), hnum]
    exact Dvd.intro_left _ rfl
  exact Nat.eq_zero_of_dvd_of_lt hdvd hlt

/-- A number that has more places than were read has room for the next digit. -/
theorem scale_le_of_full {mantissa scale : ℕ} (hfull : 2 ^ 96 ≤ 10 * r.mantissa + Text.digitValue c)
    (htotal : r.total (c :: digits) = mantissa / 10 ^ scale) (hmantissa : mantissa < 2 ^ 96) :
    scale ≤ r.scale := by
  by_contra hscale
  rw [← total_place, total, div_eq_div_iff (by positivity) (by positivity)] at htotal
  have hcross : ((10 * r.mantissa + Text.digitValue c) * 10 ^ digits.length +
      Text.numeralValue digits) * 10 ^ scale = mantissa * 10 ^ (r.scale + 1 + digits.length) := by
    exact_mod_cast htotal
  have hlt : mantissa * 10 ^ (r.scale + 1 + digits.length) <
      2 ^ 96 * 10 ^ (r.scale + 1 + digits.length) :=
    Nat.mul_lt_mul_of_pos_right hmantissa (by positivity)
  have hle : 2 ^ 96 * 10 ^ (r.scale + 1 + digits.length) ≤
      ((10 * r.mantissa + Text.digitValue c) * 10 ^ digits.length + Text.numeralValue digits) *
        10 ^ scale :=
    calc 2 ^ 96 * 10 ^ (r.scale + 1 + digits.length)
        = 2 ^ 96 * 10 ^ digits.length * 10 ^ (r.scale + 1) := by ring
      _ ≤ (10 * r.mantissa + Text.digitValue c) * 10 ^ digits.length * 10 ^ scale :=
        Nat.mul_le_mul (Nat.mul_le_mul_right _ hfull)
          (Nat.pow_le_pow_right (by decide) (by omega))
      _ ≤ _ := Nat.mul_le_mul_right _ (Nat.le_add_right _ _)
  omega

theorem total_of_zeros (hzeros : ∀ c ∈ digits, c = '0') :
    r.total digits = r.mantissa / 10 ^ r.scale := by
  have hvalue : Text.numeralValue digits = 0 :=
    (Text.numeralValue_eq_zero fun c hc => hzeros c hc ▸ rfl).mpr hzeros
  rw [total, hvalue, Nat.add_zero, pow_add]
  push_cast
  exact mul_div_mul_right _ _ (by positivity)

theorem dropping?_zeros (hmantissa : r.mantissa < 2 ^ 96) (hscale : r.scale ≤ 28)
    (hzeros : ∀ d ∈ c :: digits, d = '0') : ∃ d,
      r.dropping? (Text.digitValue c) digits = some d ∧
        d.value = signOf r.negative * r.total (c :: digits) := by
  obtain ⟨d, hd, hvalue⟩ := make?_of_lt r.negative hmantissa hscale
  refine ⟨d, ?_, by rw [hvalue, total_of_zeros hzeros]⟩
  obtain ⟨rfl, hrest⟩ := List.forall_mem_cons.mp hzeros
  have hall : (digits.all fun c => c.isDigit || c == '_') = true := by
    rw [List.all_eq_true]
    intro c hc
    rw [hrest c hc]
    rfl
  rw [dropping?, if_pos hall]
  show (if r.mantissa < 2 ^ 96 then r.finish? else _) = _
  rw [if_pos hmantissa]
  exact hd

/-- After the point a digit that is read decides on nothing until 28 places are full. -/
theorem isDecidedBy_digit (hc : c.isDigit) (hpoint : r.pointSeen) :
    r.isDecidedBy c = decide (28 ≤ r.scale) := by
  have hunderscore : (c == '_') = false := by
    rw [beq_eq_false_iff_ne]
    rintro rfl
    cases hc
  rw [isDecidedBy, isFull, hpoint, hunderscore]
  simp

theorem read?_full (hc : c.isDigit) (hpoint : r.pointSeen) (hfull : 28 ≤ r.scale) :
    r.read? (c :: digits) = r.dropping? (Text.digitValue c) digits := by
  have hdecided : r.isDecidedBy c = true := by
    rw [isDecidedBy_digit hc hpoint]
    exact decide_eq_true hfull
  rw [read?, if_pos hdecided, if_pos hc]

theorem read?_place (hc : c.isDigit) (hpoint : r.pointSeen) (hplaces : r.scale < 28) :
    r.read? (c :: digits) =
      if (r.place c).mantissa < 2 ^ 96 then (r.place c).read? digits
      else r.dropping? (Text.digitValue c) digits := by
  have hdecided : ¬r.isDecidedBy c = true := by
    rw [isDecidedBy_digit hc hpoint, decide_eq_true_eq]
    omega
  rw [read?, if_neg hdecided, if_pos hc, if_pos hpoint, if_pos hpoint]
  rfl

/-- Places are read exactly if a decimal holds all of them. -/
theorem read?_places (hdigits : ∀ c ∈ digits, c.isDigit) (hpoint : r.pointSeen)
    (hmantissa : r.mantissa < 2 ^ 96) (hscale : r.scale ≤ 28)
    (hseen : r.digitSeen ∨ digits ≠ []) (hdecimal : IsDecimal (r.total digits)) : ∃ d,
      r.read? digits = some d ∧ d.value = signOf r.negative * r.total digits := by
  induction digits generalizing r with
  | nil =>
    obtain ⟨d, hd, hvalue⟩ := make?_of_lt r.negative hmantissa hscale
    refine ⟨d, ?_, by rw [hvalue, total_of_zeros (by simp)]⟩
    rw [read?, if_pos (hseen.resolve_right (· rfl))]
    exact hd
  | cons c digits ih =>
    obtain ⟨hc, hrest⟩ := List.forall_mem_cons.mp hdigits
    obtain ⟨mantissa, scale, hlt, hle, htotal⟩ :=
      (isDecimal_iff_of_nonneg (r.total_nonneg _)).mp hdecimal
    -- Where a digit is dropped the decimal has no more places than were read.
    have hdropped (hfew : scale ≤ r.scale) := dropping?_zeros hmantissa hscale
      (forall_zero_of_scale_le hdigits htotal hfew)
    rcases Nat.lt_or_ge r.scale 28 with hplaces | hfull
    · rw [read?_place hc hpoint hplaces]
      split
      · next hroom =>
        rw [← total_place] at hdecimal ⊢
        exact ih hrest hpoint hroom hplaces (.inl rfl) hdecimal
      · next hroom => exact hdropped (scale_le_of_full (Nat.not_lt.mp hroom) htotal hlt)
    · rw [read?_full hc hpoint hfull]
      exact hdropped (hle.trans hfull)

/-! ### Digits before the point -/

/-- The reading after digits before the point. -/
def whole (r : Reading) (digits : List Char) : Reading :=
  { r with mantissa := r.mantissa * 10 ^ digits.length + Text.numeralValue digits,
           digitSeen := r.digitSeen || !digits.isEmpty }

theorem whole_nil (r : Reading) : r.whole [] = r := by
  simp [whole, Text.numeralValue]

theorem whole_cons (r : Reading) (c : Char) (digits : List Char) :
    (r.whole [c]).whole digits = r.whole (c :: digits) := by
  have hmantissa : (r.mantissa * 10 ^ 1 + Text.numeralValue [c]) * 10 ^ digits.length +
      Text.numeralValue digits =
        r.mantissa * 10 ^ (digits.length + 1) + Text.numeralValue (c :: digits) := by
    rw [Text.numeralValue_cons c digits, Text.numeralValue_cons c []]
    simp only [Text.numeralValue, List.foldl_nil, List.length_nil, pow_zero, pow_succ]
    ring
  simp [whole, hmantissa]

theorem read?_digit (hc : c.isDigit) (hpoint : r.pointSeen = false) (hscale : r.scale = 0)
    (rest : List Char) : r.read? (c :: rest) =
      if (r.whole [c]).mantissa < 2 ^ 96 then (r.whole [c]).read? rest else none := by
  have hmantissa : 10 * r.mantissa + Text.digitValue c = (r.whole [c]).mantissa := by
    show _ = r.mantissa * 10 ^ 1 + Text.numeralValue [c]
    simp only [Text.numeralValue, List.foldl_cons, List.foldl_nil]
    omega
  have hnext : { r with mantissa := (r.whole [c]).mantissa, digitSeen := true, scale := 0,
                        pointSeen := false } = r.whole [c] := by
    simp [whole, ← hscale, ← hpoint]
  have hdecided : r.isDecidedBy c = false := by simp [isDecidedBy, isFull, hpoint]
  rw [read?]
  simp only [hdecided, hc, hpoint, hmantissa, hnext, Bool.false_eq_true, if_false, if_true]

theorem read?_whole (hdigits : ∀ c ∈ digits, c.isDigit) (hpoint : r.pointSeen = false)
    (hscale : r.scale = 0) (hmantissa : r.mantissa < 2 ^ 96) (rest : List Char) :
    r.read? (digits ++ rest) =
      if (r.whole digits).mantissa < 2 ^ 96 then (r.whole digits).read? rest else none := by
  induction digits generalizing r with
  | nil => rw [whole_nil, if_pos hmantissa, List.nil_append]
  | cons c digits ih =>
    obtain ⟨hc, hrest⟩ := List.forall_mem_cons.mp hdigits
    rw [List.cons_append, read?_digit hc hpoint hscale, ← whole_cons r c digits]
    split
    · next hroom => exact ih hrest hpoint hscale hroom
    · next hfull =>
      have hgrows : (r.whole [c]).mantissa ≤ ((r.whole [c]).whole digits).mantissa :=
        (Nat.le_mul_of_pos_right _ (by positivity)).trans (Nat.le_add_right _ _)
      rw [if_neg (by omega)]

theorem read?_point (hpoint : r.pointSeen = false) (rest : List Char) :
    r.read? ('.' :: rest) = { r with pointSeen := true }.read? rest := by
  have hdecided : r.isDecidedBy '.' = false := by simp [isDecidedBy, isFull, hpoint]
  rw [read?]
  simp [hdecided, hpoint]

theorem read?_eq_none {cs : List Char} (hc : c ∈ cs) (hdigit : c.isDigit = false)
    (hpoint : c ≠ '.') (hunderscore : c ≠ '_') : r.read? cs = none := by
  have hdropping (r : Reading) (n : ℕ) {rest : List Char} (hmem : c ∈ rest) :
      r.dropping? n rest = none := by
    rw [dropping?, if_neg]
    rw [List.all_eq_true]
    intro hall
    have hbad := hall c hmem
    simp [hdigit, hunderscore] at hbad
  induction cs generalizing r with
  | nil => cases hc
  | cons d rest ih =>
    rw [read?]
    rcases List.mem_cons.mp hc with rfl | hmem
    · simp [hdigit, hpoint, hunderscore]
    · simp only [hdropping _ _ hmem, ih hmem, ite_self]

end Decimal.Reading

namespace Decimal

variable {l : Literal}

/-! ### Bases -/

theorem ofPlain?_baseChars (l : Literal) :
    ofPlain? l.baseChars = (Reading.start l.negative).read? (l.whole ++ l.pointed) := by
  obtain ⟨c, cs, hbody, hminus, hplus⟩ := l.head_body
  unfold Literal.baseChars Literal.negative
  rw [hbody]
  cases hsign : l.sign with
  | none =>
    show ofPlain? (c :: cs) = _
    unfold ofPlain?
    split
    · next h => exact absurd (List.cons.inj h).1 hminus
    · next h => exact absurd (List.cons.inj h).1 hplus
    · rfl
  | some minus => cases minus <;> rfl

theorem base_eq (l : Literal) : l.base = signOf l.negative *
    (Text.numeralValue l.whole + (Text.numeralValue (l.places.getD []) : ℚ) /
      10 ^ (l.places.getD []).length) := by
  rw [Literal.base, Literal.digits, Text.numeralValue_append_digits]
  push_cast
  rw [add_div, mul_div_cancel_right₀ _ (by positivity)]

theorem isDecimal_base_of_length_le (h : l.digits.length ≤ 28) : IsDecimal l.base := by
  refine (isDecimal_signOf_mul _ (by positivity)).mpr
    ⟨Text.numeralValue l.digits, (l.places.getD []).length, ?_, ?_, rfl⟩
  · calc Text.numeralValue l.digits
        < 10 ^ l.digits.length := Text.numeralValue_lt fun c hc => Literal.isDigit_of_mem_digits hc
      _ ≤ 10 ^ 28 := Nat.pow_le_pow_right (by decide) h
      _ < 2 ^ 96 := by norm_num
  · rw [Literal.digits, List.length_append] at h
    omega

theorem whole_lt_of_ofPlain? {d : Decimal} (h : ofPlain? l.baseChars = some d) :
    Text.numeralValue l.whole < 2 ^ 96 := by
  rw [ofPlain?_baseChars, Reading.read?_whole l.decimalWhole rfl rfl (Nat.pow_pos two_pos)] at h
  split at h
  · next hroom => simpa [Reading.whole, Reading.start] using hroom
  · cases h

/-- A base is read exactly if there is a decimal of its value. -/
theorem ofPlain?_of_isDecimal (h : IsDecimal l.base) :
    ∃ d, ofPlain? l.baseChars = some d ∧ d.value = l.base := by
  have hroom : ((Reading.start l.negative).whole l.whole).mantissa < 2 ^ 96 := by
    rw [base_eq, isDecimal_signOf_mul _ (by positivity)] at h
    obtain ⟨mantissa, scale, hlt, -, hvalue⟩ := h
    have hle : (Text.numeralValue l.whole : ℚ) ≤ mantissa :=
      calc (Text.numeralValue l.whole : ℚ)
          ≤ mantissa / 10 ^ scale := hvalue ▸ le_add_of_nonneg_right (by positivity)
        _ ≤ mantissa := div_le_self (by positivity) (one_le_pow₀ (by norm_num))
    have hmantissa : ((Reading.start l.negative).whole l.whole).mantissa =
        Text.numeralValue l.whole := by simp [Reading.whole, Reading.start]
    rw [hmantissa]
    exact Nat.lt_of_le_of_lt (by exact_mod_cast hle) hlt
  have hnonempty := l.nonempty
  have hplaces := l.decimalPlaces
  rw [base_eq] at h
  rw [base_eq, ofPlain?_baseChars, Reading.read?_whole l.decimalWhole rfl rfl
    (Nat.pow_pos two_pos), if_pos hroom, Literal.pointed]
  cases hl : l.places with
  | none =>
    rw [hl, Option.getD_none, List.append_nil] at hnonempty
    obtain ⟨d, hd, hvalue⟩ := make?_of_lt l.negative hroom (Nat.zero_le 28)
    refine ⟨d, ?_, ?_⟩
    · rw [Reading.read?, if_pos (by simp [Reading.whole, hnonempty])]
      exact hd
    · rw [hvalue]
      simp [Reading.whole, Reading.start, Text.numeralValue]
  | some digits =>
    rw [hl, Option.getD_some] at h hplaces hnonempty
    let r : Reading := { (Reading.start l.negative).whole l.whole with pointSeen := true }
    have htotal : r.total digits =
        Text.numeralValue l.whole + (Text.numeralValue digits : ℚ) / 10 ^ digits.length := by
      show (((0 * _ + Text.numeralValue l.whole) * 10 ^ digits.length + _ : ℕ) : ℚ) /
        10 ^ (0 + digits.length) = _
      rw [Nat.zero_mul, Nat.zero_add, Nat.zero_add]
      push_cast
      rw [add_div, mul_div_cancel_right₀ _ (by positivity)]
    have hseen : r.digitSeen ∨ digits ≠ [] := by
      by_cases hwhole : l.whole = []
      · exact .inr (by simpa [hwhole] using hnonempty)
      · exact .inl (by simp [r, Reading.whole, hwhole])
    have hdecimal : IsDecimal (r.total digits) := by
      rw [← htotal, isDecimal_signOf_mul _ (r.total_nonneg _)] at h
      exact (isDecimal_iff_of_nonneg (r.total_nonneg _)).mpr h
    obtain ⟨d, hd, hvalue⟩ :=
      Reading.read?_places (r := r) hplaces rfl hroom (Nat.zero_le 28) hseen hdecimal
    rw [Reading.read?_point rfl]
    exact ⟨d, hd, by rw [hvalue, htotal]; rfl⟩

theorem ofPlain?_eq_none_of_mem {cs : List Char} {c : Char} (hc : c ∈ cs)
    (hother : ¬(c = '-' ∨ c = '+' ∨ c = '.' ∨ c.isDigit)) (hunderscore : c ≠ '_') :
    ofPlain? cs = none := by
  simp only [not_or, Bool.not_eq_true] at hother
  obtain ⟨hminus, hplus, hpoint, hdigit⟩ := hother
  unfold ofPlain?
  split
  · exact Reading.read?_eq_none (List.mem_of_ne_of_mem hminus hc) hdigit hpoint hunderscore
  · exact Reading.read?_eq_none (List.mem_of_ne_of_mem hplus hc) hdigit hpoint hunderscore
  · exact Reading.read?_eq_none hc hdigit hpoint hunderscore

end Decimal

end Fieldwise
