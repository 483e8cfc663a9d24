import Fieldwise.Calendar.Date
import Fieldwise.Json.Float
import Fieldwise.Text.Basic
import Fieldwise.Toml
import Fieldwise.Toml.Token

/-!
TOML values that are written without quotes or brackets: booleans, numbers and points in time.
-/

namespace Fieldwise.Toml

def digits? (isDigit : Char → Bool) (cs : List Char) : Option (List Char) :=
  let groups := Text.splitAt '_' cs
  if groups.all fun g => !g.isEmpty && g.all isDigit then some groups.flatten else none

def unsigned : List Char → List Char
  | '+' :: cs => cs
  | '-' :: cs => cs
  | cs => cs

/-- Digits without a leading zero, unless it is the only one. -/
def wholeDigits? (cs : List Char) : Option (List Char) := do
  let ds ← digits? Char.isDigit cs
  if ds.head? == some '0' && cs.length != 1 then none else some ds

def inRange? (i : Int) : Option Toml :=
  if -2 ^ 63 ≤ i ∧ i < 2 ^ 63 then some (integer i) else none

def radixInteger? (radix : Nat) (cs : List Char) : Option Toml := do
  let isDigit (c : Char) : Bool := (Json.Scanner.hexValue? c).any (· < radix)
  let values ← (← digits? isDigit cs).mapM Json.Scanner.hexValue?
  inRange? (values.foldl (fun n d => radix * n + d) 0 : Nat)

def integer? : List Char → Option Toml
  | '0' :: 'x' :: cs => radixInteger? 16 cs
  | '0' :: 'o' :: cs => radixInteger? 8 cs
  | '0' :: 'b' :: cs => radixInteger? 2 cs
  | '-' :: cs => (wholeDigits? cs).bind fun ds => inRange? (-(Text.numeralValue ds : Int))
  | cs => (wholeDigits? (unsigned cs)).bind fun ds => inRange? (Text.numeralValue ds)

def isExponentMark (c : Char) : Bool := c == 'e' || c == 'E'

/-- The exponent from its mark on, if there is one: whether it is negative, and its digits. -/
def exponent? : List Char → Option (Option (Bool × List Char))
  | [] => some none
  | _ :: cs => (digits? Char.isDigit (unsigned cs)).map fun ds => some (cs.head? == some '-', ds)

/-- The digits of the fraction from the point on. -/
def fraction? : List Char → Option (List Char)
  | [] => some []
  | _ :: cs => digits? Char.isDigit cs

/-- A number with a fraction, an exponent or both; one that is too large must be negative. -/
def float? (cs : List Char) : Option Toml := do
  let body := unsigned cs
  if body == ['i', 'n', 'f'] || body == ['n', 'a', 'n'] then return float cs
  let mantissa := body.takeWhile (!isExponentMark ·)
  let n : Json.Numeral := {
    negative := false
    whole := ← wholeDigits? (mantissa.takeWhile (· != '.'))
    fraction := ← fraction? (mantissa.dropWhile (· != '.'))
    exponent := ← exponent? (body.dropWhile (!isExponentMark ·)) }
  if n.fraction.isEmpty && n.exponent.isNone then none
  if n.nearest?.isSome || cs.head? == some '-' then some (float cs) else none

/-- Two digits below a bound, and what follows them. -/
def twoDigits? (low high : Nat) : List Char → Option (Nat × List Char)
  | a :: b :: rest =>
    let n := Text.numeralValue [a, b]
    if a.isDigit && b.isDigit && low ≤ n && n ≤ high then some (n, rest) else none
  | _ => none

def after? (c : Char) : List Char → Option (List Char)
  | x :: rest => if x = c then some rest else none
  | [] => none

def afterDate? (cs : List Char) : Option (List Char) := do
  let year := cs.take 4
  if !(year.length == 4 && year.all Char.isDigit) then none
  let (month, rest) ← twoDigits? 1 12 (← after? '-' (cs.drop 4))
  let (day, rest) ← twoDigits? 1 31 (← after? '-' rest)
  if (Calendar.Date.make? (Text.numeralValue year) month day).isSome then some rest else none

def afterClock? (cs : List Char) : Option (List Char) := do
  let (_, rest) ← twoDigits? 0 23 cs
  let (_, rest) ← twoDigits? 0 59 (← after? ':' rest)
  let (_, rest) ← twoDigits? 0 60 (← after? ':' rest)
  match rest with
  | '.' :: rest =>
    if (rest.takeWhile Char.isDigit).isEmpty then none else some (rest.dropWhile Char.isDigit)
  | _ => some rest

/-- Nothing, or a distance from world time. -/
def isOffset : List Char → Bool
  | [] | ['Z'] | ['z'] => true
  | sign :: rest =>
    (sign == '+' || sign == '-') && (do
      let (_, rest) ← twoDigits? 0 23 rest
      let (_, rest) ← twoDigits? 0 59 (← after? ':' rest)
      pure rest.isEmpty).getD false

def isTime (cs : List Char) : Bool :=
  match afterDate? cs with
  | some [] => true
  | some (c :: rest) => (c == 'T' || c == 't' || c == ' ') && (afterClock? rest).any isOffset
  | none => (afterClock? cs).any List.isEmpty

def scalar? (cs : List Char) : Option Toml :=
  if cs == ['t', 'r', 'u', 'e'] then some (boolean true)
  else if cs == ['f', 'a', 'l', 's', 'e'] then some (boolean false)
  else if isTime cs then some (time cs)
  else (float? cs) <|> (integer? cs)

end Fieldwise.Toml
