import Fieldwise.Json.Token
import Fieldwise.Number.Binary64

/-!
Floating-point values of numbers as they are written. `Numeral.nearest?` rounds once. Documents are
read by `Numeral.float?`, in which the leading digits, as many as fit into 64 bits, are rounded
first and then scaled by a power of ten; for up to 15 digits and small exponents the two agree.
-/

namespace Fieldwise

namespace Binary64

def decimalPower? (n : Nat) : Option Binary64 := nearest? false (Fraction.ofNat (10 ^ n))

/-- A number times a power of ten. There are two divisions if the power has no value of its own;
two are enough for any number that comes from 64 bits. -/
def scale? (x : Binary64) : (exponent : Int) → Option Binary64
  | .ofNat n =>
    if x.isZero then some x
    else if n ≤ 308 then (decimalPower? n).bind x.mul?
    else none
  | .negSucc n => do
    let x ← x.div? (← decimalPower? (min (n + 1) 308))
    x.div? (← decimalPower? (min (n + 1 - 308) 308))

end Binary64

namespace Json

/-- Digits of a number as far as they fit into 64 bits, and the power of ten that goes with them. -/
structure Mantissa where
  digits : Nat
  exponent : Int
deriving DecidableEq

namespace Mantissa

def push? (n : Nat) (d : Char) : Option Nat :=
  let next := 10 * n + Text.digitValue d
  if next < 2 ^ 64 then some next else none

/-- From the first digit that does not fit on, digits only raise the exponent. -/
def ofWhole (n : Nat) : List Char → Mantissa
  | [] => ⟨n, 0⟩
  | d :: rest =>
    match push? n d with
    | some next => ofWhole next rest
    | none => ⟨n, rest.length + 1⟩

/-- Digits of the fraction follow up to the first that does not fit. -/
def addFraction (m : Mantissa) : List Char → Mantissa
  | [] => m
  | d :: rest =>
    match push? m.digits d with
    | some next => addFraction ⟨next, m.exponent - 1⟩ rest
    | none => m

end Mantissa

namespace Numeral

def writtenExponent (n : Numeral) : Int :=
  match n.exponent with
  | none => 0
  | some (true, digits) => -(Text.numeralValue digits : Int)
  | some (false, digits) => Text.numeralValue digits

def float? (n : Numeral) : Option Binary64 := do
  let m := (Mantissa.ofWhole 0 n.whole).addFraction n.fraction
  let x ← Binary64.nearest? n.negative (Fraction.ofNat m.digits)
  x.scale? (m.exponent + n.writtenExponent)

/-- The nearest floating-point number. Exponents far outside the range are not computed with. -/
def nearest? (n : Numeral) : Option Binary64 :=
  let digits := (n.whole ++ n.fraction).dropWhile (· == '0')
  let exponent := n.writtenExponent - n.fraction.length
  if digits.isEmpty || exponent + digits.length < -400 then some (Binary64.zero n.negative)
  else if 400 < exponent + digits.length then none
  else Binary64.nearest? n.negative (Fraction.scaled (Text.numeralValue digits) 10 exponent)

end Numeral

end Json

end Fieldwise
