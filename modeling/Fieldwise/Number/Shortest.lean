import Fieldwise.Number.Binary64
import Fieldwise.Text.Numeral

/-!
The shortest decimal digits of a floating-point number: among the decimal numbers that are rounded
to it, those with the fewest digits, and of these the nearest. The search goes through the grids
of one digit, two digits and so on, and looks at the two points of each grid around the value.
-/

namespace Fieldwise.Binary64

/-- What becomes of a value halfway between the two shortest candidates. -/
inductive Halfway
  | toEven
  | up
deriving DecidableEq

/-- Where numbers begin that are rounded to this one. -/
def lowerEnd (x : Binary64) : Fraction :=
  if x.significand = 2 ^ 52 ∧ -1074 < x.exponent then
    Fraction.scaled (4 * x.significand - 1) 2 (x.exponent - 2)
  else Fraction.scaled (2 * x.significand - 1) 2 (x.exponent - 1)

/-- Where numbers end that are rounded to this one. -/
def upperEnd (x : Binary64) : Fraction :=
  Fraction.scaled (2 * x.significand + 1) 2 (x.exponent - 1)

/-- The ends themselves are rounded to the number exactly if its significand is even. -/
def attracts (x : Binary64) (v : Fraction) : Bool :=
  if x.significand % 2 = 0 then x.lowerEnd.le v && v.le x.upperEnd
  else x.lowerEnd.lt v && v.lt x.upperEnd

/-- The point of the grid `10 ^ k` that stands for the number, if there is one. -/
def gridPoint? (halfway : Halfway) (x : Binary64) (k : Int) : Option Nat :=
  let below := (x.magnitude.div (Fraction.power 10 k)).floor
  let above := below + 1
  match x.attracts (Fraction.scaled below 10 k), x.attracts (Fraction.scaled above 10 k) with
  | false, false => none
  | true, false => some below
  | false, true => some above
  | true, true =>
    let doubled := (Fraction.ofNat 2).mul x.magnitude
    let middle := Fraction.scaled (below + above) 10 k
    if doubled.lt middle then some below
    else if middle.lt doubled then some above
    else if halfway = .toEven ∧ below % 2 = 0 then some below
    else some above

/-- Tries `10 ^ k` and the finer grids after it. -/
def searchGrids (halfway : Halfway) (x : Binary64) : Nat → Int → Nat × Int
  | 0, k => ((x.magnitude.div (Fraction.power 10 k)).floor, k)
  | more + 1, k =>
    match gridPoint? halfway x k with
    | some n => (n, k)
    | none => searchGrids halfway x more (k - 1)

def leadingPlace (x : Fraction) : Int :=
  let estimate : Int := (Nat.toDigits 10 x.num).length - (Nat.toDigits 10 x.den).length
  if (Fraction.power 10 estimate).le x then estimate else estimate - 1

def stripZeros : List Char → List Char
  | cs => (cs.reverse.dropWhile (· = '0')).reverse

/-- Shortest digits, without zeros at the end, and the exponent of the first of them. -/
def shortest (halfway : Halfway) (x : Binary64) : List Char × Int :=
  if x.isZero then (['0'], 0)
  else
    let (n, k) := searchGrids halfway x 17 (leadingPlace x.magnitude)
    let digits := Text.numeral n
    (stripZeros digits, k + digits.length - 1)

/-! ### Written forms

All of them show the shortest digits; they differ in where they are positional and in how an
exponent
looks. -/

def signText (x : Binary64) : List Char := if x.negative then ['-'] else []

/-- Digits with a point after the first, if there are more. -/
def pointed : List Char → List Char
  | [] => []
  | [d] => [d]
  | d :: ds => d :: '.' :: ds

/-- Positional digits; `place` is the exponent of the first. There is always a fraction. -/
def positional (digits : List Char) (place : Int) : List Char :=
  if place < 0 then
    '0' :: '.' :: (List.replicate (-place - 1).toNat '0' ++ digits)
  else
    let whole := place.toNat + 1
    let fraction := digits.drop whole
    (digits.take whole ++ List.replicate (whole - digits.length) '0') ++ '.' ::
      (if fraction.isEmpty then ['0'] else fraction)

/-- One digit, the fraction if any, and the exponent without plus sign: `1.95e1`. -/
def scientific (x : Binary64) : String :=
  let (digits, place) := x.shortest .up
  String.ofList (x.signText ++ pointed digits ++ 'e' :: Text.integerNumeral place)

/-- A number in a document: positional with a fraction from `1e-5` up to below `1e16`, otherwise
with an exponent that has a sign. -/
def documentText (x : Binary64) : String :=
  let (digits, place) := x.shortest .toEven
  let body :=
    if -5 ≤ place && place < 16 then positional digits place
    else
      let sign := if place < 0 then '-' else '+'
      pointed digits ++ 'e' :: sign :: Text.numeral place.natAbs
  String.ofList (x.signText ++ body)

end Fieldwise.Binary64
