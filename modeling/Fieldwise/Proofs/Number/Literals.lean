import Fieldwise.Proofs.Json.WrittenPath
import Fieldwise.Proofs.Number.Values

/-!
Numbers as they are written in decimal: a sign, digits, a point with places after it and an
exponent. A literal is data that holds what may be chosen in writing it, and from it follow its
characters and its exact value.
-/

namespace Fieldwise

namespace Text

variable {digits : List Char}

theorem ne_minus_cons (h : ∀ c ∈ digits, c.isDigit) (rest : List Char) : digits ≠ '-' :: rest := by
  rintro rfl
  exact absurd (h '-' (by simp)) (by decide)

theorem naturalOf?_digits (plus : Bool) (hne : digits ≠ []) (h : ∀ c ∈ digits, c.isDigit) :
    naturalOf? (Json.plusSign plus ++ digits) = some (numeralValue digits) :=
  Json.naturalOf?_eq_some.mpr ⟨plus, digits, hne, h, rfl, rfl⟩

end Text

/-- A sign, if there is one; it may be a minus. -/
def signChars : Option Bool → List Char
  | none => []
  | some true => ['-']
  | some false => ['+']

/-- The power of ten after its mark. -/
structure WrittenExponent where
  mark : Char
  sign : Option Bool
  digits : List Char
  isMark : mark = 'e' ∨ mark = 'E'
  nonempty : digits ≠ []
  decimal : ∀ c ∈ digits, c.isDigit

namespace WrittenExponent

def numeral (e : WrittenExponent) : List Char := signChars e.sign ++ e.digits

def chars (e : WrittenExponent) : List Char := e.mark :: e.numeral

def value (e : WrittenExponent) : ℤ :=
  if e.sign = some true then -(Text.numeralValue e.digits : ℤ) else Text.numeralValue e.digits

end WrittenExponent

/-- There is a digit before the point or after it. -/
structure Literal where
  sign : Option Bool
  whole : List Char
  places : Option (List Char)
  exponent : Option WrittenExponent
  decimalWhole : ∀ c ∈ whole, c.isDigit
  decimalPlaces : ∀ c ∈ places.getD [], c.isDigit
  nonempty : whole ++ places.getD [] ≠ []

namespace Literal

variable (l : Literal)

def pointed : List Char :=
  match l.places with
  | none => []
  | some digits => '.' :: digits

def baseChars : List Char := signChars l.sign ++ (l.whole ++ l.pointed)

def exponentChars : List Char :=
  match l.exponent with
  | none => []
  | some e => e.chars

def chars : List Char := l.baseChars ++ l.exponentChars

def negative : Bool := l.sign == some true

def digits : List Char := l.whole ++ l.places.getD []

def base : ℚ :=
  signOf l.negative * (Text.numeralValue l.digits / 10 ^ (l.places.getD []).length)

def power : ℤ :=
  match l.exponent with
  | none => 0
  | some e => e.value

def value : ℚ := l.base * 10 ^ l.power

variable {l}

theorem abs_value (l : Literal) : |l.value| =
    Text.numeralValue l.digits * 10 ^ (l.power - (l.places.getD []).length) := by
  have hsign : |signOf l.negative| = 1 := by cases l.negative <;> simp
  have hpower := ten_zpow_pos l.power
  rw [value, base, mul_assoc, abs_mul, hsign, one_mul, abs_of_nonneg (by positivity),
    zpow_sub₀ (by norm_num), zpow_natCast, div_mul_eq_mul_div, mul_div_assoc]

theorem value_eq_signOf_mul_abs (l : Literal) : l.value = signOf l.negative * |l.value| := by
  rw [abs_value, value, base, zpow_sub₀ (by norm_num), zpow_natCast]
  ring

theorem isDigit_of_mem_digits {c : Char} (h : c ∈ l.digits) : c.isDigit :=
  (List.mem_append.mp h).elim (l.decimalWhole c) (l.decimalPlaces c)

theorem of_mem_pointed {c : Char} (h : c ∈ l.pointed) : c = '.' ∨ c.isDigit := by
  have hplaces := l.decimalPlaces
  unfold pointed at h
  cases hl : l.places with
  | none => simp [hl] at h
  | some ds =>
    rw [hl] at h hplaces
    exact (List.mem_cons.mp h).imp_right (hplaces c)

theorem of_mem_baseChars {c : Char} (h : c ∈ l.baseChars) :
    c = '-' ∨ c = '+' ∨ c = '.' ∨ c.isDigit := by
  simp only [baseChars, List.mem_append] at h
  rcases h with h | h | h
  · rcases hl : l.sign with _ | _ | _
    · simp [hl, signChars] at h
    · simp_all [signChars]
    · simp_all [signChars]
  · exact .inr (.inr (.inr (l.decimalWhole c h)))
  · exact .inr (.inr (of_mem_pointed h))

theorem head_body (l : Literal) : ∃ c cs, l.whole ++ l.pointed = c :: cs ∧ c ≠ '-' ∧ c ≠ '+' := by
  have hne : l.whole ++ l.pointed ≠ [] := by
    have hnonempty := l.nonempty
    unfold pointed
    cases hl : l.places <;> simp_all
  obtain ⟨c, cs, hcs⟩ := List.exists_cons_of_ne_nil hne
  have hc : c ∈ l.whole ++ l.pointed := by simp [hcs]
  refine ⟨c, cs, hcs, ?_, ?_⟩
  · rintro rfl
    rcases List.mem_append.mp hc with h | h
    · exact absurd (l.decimalWhole _ h) (by decide)
    · exact absurd (of_mem_pointed h) (by decide)
  · rintro rfl
    rcases List.mem_append.mp hc with h | h
    · exact absurd (l.decimalWhole _ h) (by decide)
    · exact absurd (of_mem_pointed h) (by decide)

theorem not_blank_of_mem_chars {c : Char} (h : c ∈ l.chars) : Text.isBlankChar c = false := by
  have hbase {c : Char} (h : c = '-' ∨ c = '+' ∨ c = '.' ∨ c.isDigit) :
      Text.isBlankChar c = false := by
    rcases h with rfl | rfl | rfl | h
    · rfl
    · rfl
    · rfl
    · exact Text.isBlankChar_of_isDigit h
  rcases List.mem_append.mp h with h | h
  · exact hbase (of_mem_baseChars h)
  · unfold exponentChars at h
    cases hl : l.exponent with
    | none => simp [hl] at h
    | some e =>
      simp only [hl, WrittenExponent.chars, WrittenExponent.numeral, List.mem_cons,
        List.mem_append] at h
      rcases h with rfl | h | h
      · rcases e.isMark with h | h <;> rw [h] <;> rfl
      · apply hbase
        rcases hsign : e.sign with _ | _ | _ <;> simp_all [signChars]
      · exact hbase (.inr (.inr (.inr (e.decimal c h))))

theorem tight_chars (l : Literal) : Text.Tight l.chars :=
  .of_no_blank fun _ => not_blank_of_mem_chars

end Literal

end Fieldwise
