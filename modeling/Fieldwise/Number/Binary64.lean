import Fieldwise.Number.Fraction

/-!
Finite binary floating-point numbers of 64 bits: a sign, a significand below `2 ^ 53` and an
exponent. Each value has one form, so equal numbers are equal as data, apart from the two zeros.
Arithmetic is exact arithmetic on fractions followed by one rounding, to the nearest such number
and to the even significand where two are equally near.
-/

namespace Fieldwise

/-- The significand is as large as the exponent range allows. -/
def Binary64.Canonical (significand : Nat) (exponent : Int) : Prop :=
  significand < 2 ^ 53 ∧ -1074 ≤ exponent ∧ exponent ≤ 971 ∧
    (2 ^ 52 ≤ significand ∨ exponent = -1074)

instance (significand : Nat) (exponent : Int) :
    Decidable (Binary64.Canonical significand exponent) :=
  inferInstanceAs (Decidable (_ ∧ _ ∧ _ ∧ _))

/-- `significand · 2 ^ exponent`, negated if `negative`. -/
structure Binary64 where
  negative : Bool
  significand : Nat
  exponent : Int
  canonical : Binary64.Canonical significand exponent
deriving DecidableEq

namespace Binary64

def zero (negative : Bool) : Binary64 := ⟨negative, 0, -1074, by decide⟩

def isZero (x : Binary64) : Bool := x.significand == 0

def magnitude (x : Binary64) : Fraction := Fraction.scaled x.significand 2 x.exponent

def ofParts? (negative : Bool) (significand : Nat) (exponent : Int) : Option Binary64 :=
  if h : Canonical significand exponent then some ⟨negative, significand, exponent, h⟩ else none

/-- The exponent at which a positive fraction has a significand of 53 bits, or the least one. -/
def exponentFor (x : Fraction) : Int :=
  let e := max ((x.num.log2 : Int) - x.den.log2 - 53) (-1074)
  if (x.div (Fraction.power 2 e)).floor < 2 ^ 53 then e else e + 1

/-- The nearest number with the given sign; none if the fraction is too large for one. -/
def nearest? (negative : Bool) (x : Fraction) : Option Binary64 :=
  if x.num = 0 then some (zero negative)
  else
    let e := exponentFor x
    let m := (x.div (Fraction.power 2 e)).roundHalfEven
    if m < 2 ^ 53 then ofParts? negative m e else ofParts? negative (2 ^ 52) (e + 1)

def ofNat? (n : Nat) : Option Binary64 := nearest? false (Fraction.ofNat n)

def addMagnitudes? (x y : Binary64) : Option Binary64 :=
  nearest? false (x.magnitude.add y.magnitude)

def mul? (x y : Binary64) : Option Binary64 :=
  nearest? (x.negative != y.negative) (x.magnitude.mul y.magnitude)

def div? (x y : Binary64) : Option Binary64 :=
  nearest? (x.negative != y.negative) (x.magnitude.div y.magnitude)

/-- The nearest integer, as a number again; a half goes away from zero. -/
def round? (x : Binary64) : Option Binary64 :=
  nearest? x.negative (Fraction.ofNat x.magnitude.roundHalfUp)

def negate (x : Binary64) : Binary64 := { x with negative := !x.negative }

def toInt? (x : Binary64) : Option Int :=
  let v := x.magnitude
  if v.num % v.den = 0 then
    some (if x.negative then -(v.num / v.den : Nat) else (v.num / v.den : Nat))
  else none

/-- A power of ten by repeated squaring, each product rounded. -/
def powerOfTen? (n : Nat) : Option Binary64 := do
  go n.log2 n (← ofNat? 10) (← ofNat? 1)
where
  go : Nat → Nat → Binary64 → Binary64 → Option Binary64
    | 0, n, base, acc => if n % 2 = 1 then acc.mul? base else some acc
    | steps + 1, n, base, acc => do
      let acc ← if n % 2 = 1 then acc.mul? base else some acc
      go steps (n / 2) (← base.mul? base) acc

end Binary64

end Fieldwise
