import Fieldwise.Number.Fraction

/-!
Decimal numbers with a mantissa of 96 bits and up to 28 places. The scale is kept: `1.5` and
`1.50` are different data of equal value. So is the sign of a zero: what is given as a zero has
none, and a negative number whose last digit is dropped stays negative.
-/

namespace Fieldwise

/-- `mantissa / 10 ^ scale`, negated if `negative`. -/
structure Decimal where
  negative : Bool
  mantissa : Nat
  scale : Nat
  mantissa_lt : mantissa < 2 ^ 96
  scale_le : scale ≤ 28
deriving DecidableEq

namespace Decimal

def zero : Decimal := ⟨false, 0, 0, by decide, by decide⟩

/-- The number of the given digits, where a zero takes no sign. -/
def make? (negative : Bool) (mantissa scale : Nat) : Option Decimal :=
  if h : mantissa < 2 ^ 96 ∧ scale ≤ 28 then
    some ⟨negative && mantissa != 0, mantissa, scale, h.1, h.2⟩
  else none

def ofInt64 (i : Int64) : Decimal where
  negative := i.toInt < 0
  mantissa := i.toInt.natAbs
  scale := 0
  mantissa_lt := by
    have h₁ := i.toInt_lt
    have h₂ := i.le_toInt
    omega
  scale_le := by decide

def magnitude (d : Decimal) : Fraction := ⟨d.mantissa, 10 ^ d.scale⟩

/-- Equality of value; the scale does not count, nor the sign of a zero. -/
def sameValue (a b : Decimal) : Bool :=
  (a.negative == b.negative || a.mantissa == 0) && a.magnitude.eq b.magnitude

def toInt? (d : Decimal) : Option Int :=
  if d.mantissa % 10 ^ d.scale = 0 then
    let n := d.mantissa / 10 ^ d.scale
    some (if d.negative then -n else n)
  else none

end Decimal

end Fieldwise
