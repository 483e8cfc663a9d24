import Fieldwise.Number.Binary64
import Fieldwise.Number.Decimal

/-!
Decimals and binary floating-point numbers. From decimal to binary, whole part and fraction are
converted apart, and the sum is rounded to the places of the decimal. From binary to decimal a
negative power of two is worked into a mantissa of 96 bits, which is then cut to the precision that
a significand carries. Both steps lose digits; `exactFloat?` tells when they lose none.
-/

namespace Fieldwise.Decimal

/-- Whether the sign is kept: a zero without places is converted as an integer, which has none. -/
def isSigned (d : Decimal) : Bool := d.negative && (0 < d.scale || 0 < d.mantissa)

def toBinary64? (d : Decimal) : Option Binary64 := do
  let unit := 10 ^ d.scale
  let whole ← Binary64.ofNat? (d.mantissa / unit)
  let magnitude ←
    if d.mantissa % unit = 0 then pure whole
    else do
      let fraction ← (← Binary64.ofNat? (d.mantissa % unit)).div? (← Binary64.ofNat? unit)
      let places ← Binary64.powerOfTen? d.scale
      let grid ← (← (← whole.addMagnitudes? fraction).mul? places).round?
      grid.div? places
  pure (if d.isSigned then magnitude.negate else magnitude)

/-- A mantissa and a decimal exponent on the way from binary to decimal: a negative power of two is
a power of ten times as many fives. -/
structure Cut where
  mantissa : Nat
  exponent : Int

/-- Multiplies by five, `n` times: an even mantissa is halved and the exponent takes a ten; an odd
one takes the five if 96 bits hold it, and otherwise loses its last bit. -/
def Cut.timesFive : Nat → Cut → Cut
  | 0, c => c
  | n + 1, c =>
    if c.mantissa % 2 = 0 then timesFive n ⟨c.mantissa / 2, c.exponent + 1⟩
    else if c.mantissa * 5 < 2 ^ 96 then timesFive n ⟨c.mantissa * 5, c.exponent⟩
    else timesFive n ⟨c.mantissa / 2, c.exponent + 1⟩

def Cut.dropPlace (c : Cut) : Cut :=
  let m := c.mantissa / 10
  ⟨if 5 ≤ c.mantissa % 10 then m + 1 else m, c.exponent + 1⟩

/-- Drops places until at most 28 are left; what vanishes is zero. -/
def Cut.limitPlaces : Nat → Cut → Cut
  | 0, c => c
  | n + 1, c =>
    if -28 ≤ c.exponent then c
    else if c.mantissa < 10 then ⟨0, 0⟩
    else limitPlaces n c.dropPlace

/-- Drops places until the mantissa fits 52 bits. -/
def Cut.limitPrecision : Nat → Cut → Cut
  | 0, c => c
  | n + 1, c =>
    if c.exponent < 0 ∧ 2 ^ 52 ≤ c.mantissa then limitPrecision n c.dropPlace else c

def Cut.stripZeros : Nat → Cut → Cut
  | 0, c => c
  | n + 1, c =>
    if c.exponent < 0 ∧ c.mantissa % 10 = 0 then
      stripZeros n ⟨c.mantissa / 10, c.exponent + 1⟩
    else c

/-- Where the power of two is not negative the number is whole: it is taken as it is, if 96 bits
hold it, and from 2 ^ 96 on it is no decimal. -/
def ofBinary64? (x : Binary64) : Option Decimal :=
  if x.isZero then some zero
  else if 0 ≤ x.exponent then make? x.negative (x.significand * 2 ^ x.exponent.toNat) 0
  else
    let halves := x.exponent.natAbs
    let c := Cut.timesFive halves ⟨x.significand, x.exponent⟩
      |>.limitPlaces 1100 |>.limitPrecision 29 |>.stripZeros 29
    make? x.negative c.mantissa c.exponent.natAbs

/-- The floating-point number that leads back to a decimal of the same value. -/
def exactFloat? (d : Decimal) : Option Binary64 :=
  d.toBinary64?.filter fun x => (ofBinary64? x).any d.sameValue

end Fieldwise.Decimal
