import Fieldwise.Number.Decimal
import Fieldwise.Text.Numeral

/-!
Reading and writing decimals. The plain form is a sign, digits and a point, where underscores may
follow the first digit; places beyond the 28th, or beyond the mantissa, are rounded away by the
first digit that is dropped. The scientific form moves the point by an exponent, and rounds in the
same way where 28 places do not hold the result.
-/

namespace Fieldwise.Decimal

/-- All digits, with as many places as the scale says. -/
def text (d : Decimal) : String :=
  let digits := Text.paddedNumeral (d.scale + 1) d.mantissa
  let whole := digits.take (digits.length - d.scale)
  let body := if d.scale = 0 then whole else whole ++ '.' :: digits.drop (digits.length - d.scale)
  String.ofList (if d.negative then '-' :: body else body)

/-- What has been read so far of a plain numeral. -/
structure Reading where
  negative : Bool
  mantissa : Nat
  scale : Nat
  pointSeen : Bool
  digitSeen : Bool

namespace Reading

def start (negative : Bool) : Reading := ⟨negative, 0, 0, false, false⟩

def isFull (r : Reading) : Bool := r.pointSeen && 28 ≤ r.scale

/-- Whether the digits before the last one are beyond a word of 64 bits, by a margin that leaves
room for one more digit. -/
def isWide (r : Reading) : Bool := (2 ^ 64 - 1) / 10 - 255 ≤ r.mantissa / 10

def finish? (r : Reading) : Option Decimal := make? r.negative r.mantissa r.scale

/-- Ends a numeral at a digit that is dropped. A mantissa that rounding makes too large gives up
its last place. -/
def roundedBy? (r : Reading) (dropped : Nat) : Option Decimal :=
  let m := if 5 ≤ dropped then r.mantissa + 1 else r.mantissa
  if m < 2 ^ 96 then finish? { r with mantissa := m }
  else if r.scale = 0 then none
  else finish? { r with mantissa := (m + 4) / 10, scale := r.scale - 1 }

/-- Only digits and underscores follow a digit that is dropped. -/
def dropping? (r : Reading) (dropped : Nat) (rest : List Char) : Option Decimal :=
  if rest.all fun c => c.isDigit || c == '_' then r.roundedBy? dropped else none

/-- Whether the next character decides the rounding: any does in a numeral that is full. Among few
digits an underscore counts as a zero there; among many it is passed over, so that the next digit
decides. -/
def isDecidedBy (r : Reading) (c : Char) : Bool :=
  r.isFull && !(c == '_' && r.isWide)

def read? (r : Reading) : List Char → Option Decimal
  | [] => if r.digitSeen then r.finish? else none
  | c :: rest =>
    if r.isDecidedBy c then
      if c.isDigit then r.dropping? (Text.digitValue c) rest
      else if c = '_' then r.dropping? 0 rest
      else none
    else if c.isDigit then
      let m := 10 * r.mantissa + Text.digitValue c
      if m < 2 ^ 96 then
        read?
          { r with mantissa := m, digitSeen := true,
                   scale := if r.pointSeen then r.scale + 1 else 0 } rest
      else if r.pointSeen then r.dropping? (Text.digitValue c) rest
      else none
    else if c = '.' && !r.pointSeen then read? { r with pointSeen := true } rest
    else if c = '_' && r.digitSeen then r.read? rest
    else none

end Reading

def ofPlain? : List Char → Option Decimal
  | '-' :: cs => (Reading.start true).read? cs
  | '+' :: cs => (Reading.start false).read? cs
  | cs => (Reading.start false).read? cs

/-- Without the last `n` digits; a half goes away from zero. -/
def dropDigits (d : Decimal) (n : Nat) : Decimal :=
  let cut : Fraction := ⟨d.mantissa, 10 ^ n⟩
  { d with
    mantissa := cut.roundHalfUp
    mantissa_lt := Nat.lt_of_le_of_lt
      (Fraction.roundHalfUp_le_num (Nat.pow_pos (by decide))) d.mantissa_lt }

/-- Moves the point to the left, by at most 28 places. Digits beyond the 28th place are dropped,
and the sign is kept even if none is left. -/
def lowered? (d : Decimal) (n : Nat) : Option Decimal :=
  if h : d.scale + n ≤ 28 then some { d with scale := d.scale + n, scale_le := h }
  else if n ≤ 28 then
    some { d.dropDigits (d.scale + n - 28) with scale := 28, scale_le := Nat.le_refl 28 }
  else none

/-- Moves the point to the right: an exponent up to the scale lowers it, and a larger one, of at
most 28, makes the number an integer. -/
def raised? (d : Decimal) (n : Nat) : Option Decimal :=
  if n ≤ d.scale then make? d.negative d.mantissa (d.scale - n)
  else if n ≤ 28 then make? d.negative (d.mantissa * 10 ^ (n - d.scale)) 0
  else none

def shifted? (d : Decimal) : Int → Option Decimal
  | .negSucc n => d.lowered? (n + 1)
  | .ofNat n => d.raised? n

/-- An exponent is a numeral of 32 bits after an optional minus sign. -/
def exponentOf? (cs : List Char) : Option Int :=
  let bounded (digits : List Char) : Option Nat :=
    (Text.naturalOf? digits).filter (· < 2 ^ 32)
  match cs with
  | '-' :: rest => (bounded rest).map fun n => -(n : Int)
  | _ => (bounded cs).map Int.ofNat

def ofScientific? (cs : List Char) : Option Decimal :=
  let isMark (c : Char) : Bool := c == 'e' || c == 'E'
  match cs.dropWhile (!isMark ·) with
  | [] => none
  | _ :: exponent => do
    let base ← ofPlain? (cs.takeWhile (!isMark ·))
    base.shifted? (← exponentOf? exponent)

def ofText? (s : String) : Option Decimal :=
  ofPlain? s.toList <|> ofScientific? s.toList

end Fieldwise.Decimal
