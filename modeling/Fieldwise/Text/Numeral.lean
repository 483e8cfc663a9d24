/-!
Decimal numerals over ASCII digits: writing a number, padded or not, and reading one back.
-/

-- Powers of numbers are those of the core library, also where a module imports others of its own.
attribute [instance (high), default_instance 20000] instPowNat

namespace Fieldwise.Text

def digitValue (c : Char) : Nat :=
  c.toNat - '0'.toNat

def digitChar (d : Nat) : Char :=
  Char.ofNat ('0'.toNat + d % 10)

def numeralValue (digits : List Char) : Nat :=
  digits.foldl (fun n c => 10 * n + digitValue c) 0

def numeral (n : Nat) : List Char :=
  Nat.toDigits 10 n

/-- The last `width` digits of a number, with leading zeros. -/
def fixedNumeral : Nat → Nat → List Char
  | 0, _ => []
  | width + 1, n => fixedNumeral width (n / 10) ++ [digitChar n]

def padLeft (pad : Char) (width : Nat) (cs : List Char) : List Char :=
  List.replicate (width - cs.length) pad ++ cs

/-- All digits of a number, and leading zeros up to `width` of them. -/
def paddedNumeral (width n : Nat) : List Char :=
  padLeft '0' width (numeral n)

def integerNumeral (i : Int) : List Char :=
  if i < 0 then '-' :: numeral i.natAbs else numeral i.natAbs

/-- At least one digit, after an optional plus sign. -/
def naturalOf? (cs : List Char) : Option Nat :=
  let digits := match cs with
    | '+' :: rest => rest
    | _ => cs
  if !digits.isEmpty && digits.all Char.isDigit then some (numeralValue digits) else none

def integerOf? : List Char → Option Int
  | '-' :: digits =>
    if !digits.isEmpty && digits.all Char.isDigit then some (-(numeralValue digits : Int)) else none
  | cs => (naturalOf? cs).map Int.ofNat

@[simp] theorem length_fixedNumeral (width n : Nat) : (fixedNumeral width n).length = width := by
  induction width generalizing n with
  | zero => rfl
  | succ width ih => simp [fixedNumeral, ih]

theorem digitValue_digitChar (d : Nat) : digitValue (digitChar d) = d % 10 := by
  have h : ∀ r < 10, (Char.ofNat ('0'.toNat + r)).toNat - '0'.toNat = r := by decide
  exact h _ (Nat.mod_lt _ (by decide))

theorem numeralValue_append (front : List Char) (c : Char) :
    numeralValue (front ++ [c]) = 10 * numeralValue front + digitValue c := by
  simp [numeralValue]

theorem numeralValue_fixedNumeral (width n : Nat) :
    numeralValue (fixedNumeral width n) = n % 10 ^ width := by
  induction width generalizing n with
  | zero => simp [fixedNumeral, numeralValue, Nat.mod_one]
  | succ width ih =>
    rw [fixedNumeral, numeralValue_append, ih, digitValue_digitChar, Nat.pow_succ,
      Nat.mul_comm (10 ^ width), Nat.mod_mul]
    omega

end Fieldwise.Text
