import Fieldwise.Calendar.DateTime
import Fieldwise.Text.Numeral

/-!
The plain form of dates and times: `2024-03-09` and `2024-03-09T10:11:12.500`. Years outside 0 to
9999 have a sign. A fraction is written with three, six or nine digits, as few as hold it.
Timestamps with an offset from UTC are read in the profile of RFC 3339,
`2024-03-09T10:11:12.5+01:00`, and give the date and time in UTC.
-/

namespace Fieldwise.Calendar

open Text

/-- At least four digits, with a sign outside 0 to 9999. -/
def yearText (year : Int) : List Char :=
  if 0 ≤ year ∧ year ≤ 9999 then fixedNumeral 4 year.toNat
  else (if year < 0 then '-' else '+') :: paddedNumeral 4 year.natAbs

def fractionText (nano : Nat) : List Char :=
  if nano = 0 then []
  else if nano % 1000000 = 0 then '.' :: fixedNumeral 3 (nano / 1000000)
  else if nano % 1000 = 0 then '.' :: fixedNumeral 6 (nano / 1000)
  else '.' :: fixedNumeral 9 nano

def Date.isoChars (d : Date) : List Char :=
  yearText d.year ++ '-' :: fixedNumeral 2 d.month ++ '-' :: fixedNumeral 2 d.day

def Clock.isoChars (c : Clock) : List Char :=
  fixedNumeral 2 c.hour ++ ':' :: fixedNumeral 2 c.minute ++ ':' :: fixedNumeral 2 c.second ++
    fractionText c.nano

def Date.iso (d : Date) : String := String.ofList d.isoChars

def DateTime.iso (t : DateTime) : String :=
  String.ofList (t.date.isoChars ++ 'T' :: t.clock.isoChars)

/-- Reads what `yearText` writes, and shorter or longer years with a sign. -/
def yearOf? (cs : List Char) : Option Int :=
  match cs with
  | '+' :: _ | '-' :: _ => integerOf? cs
  | _ => if cs.length = 4 then integerOf? cs else none

def Date.ofIso? (s : String) : Option Date := do
  match s.toList.reverse with
  | d₀ :: d₁ :: '-' :: m₀ :: m₁ :: '-' :: year =>
    make? (← yearOf? year.reverse) (← naturalOf? [m₁, m₀]) (← naturalOf? [d₁, d₀])
  | _ => none

/-- The billionths that the digits of a fraction write. -/
def nanoOfDigits (digits : List Char) : Nat :=
  numeralValue (digits.take 9) * 10 ^ (9 - digits.length)

def Clock.ofIso? (s : String) : Option Clock := do
  match s.toList with
  | h₁ :: h₀ :: ':' :: m₁ :: m₀ :: ':' :: s₁ :: s₀ :: rest =>
    let nano ← match rest with
      | [] => some 0
      | '.' :: digits => if digits.all Char.isDigit then some (nanoOfDigits digits) else none
      | _ => none
    make? (← naturalOf? [h₁, h₀]) (← naturalOf? [m₁, m₀]) (← naturalOf? [s₁, s₀]) nano
  | _ => none

def DateTime.ofIso? (s : String) : Option DateTime := do
  let cs := s.toList
  let date ← Date.ofIso? (String.ofList (cs.takeWhile (· != 'T')))
  let clock ← Clock.ofIso? (String.ofList ((cs.dropWhile (· != 'T')).drop 1))
  pure ⟨date, clock⟩

end Fieldwise.Calendar

namespace Fieldwise.Calendar.Timestamp

open Text

/-- Minutes that local time is ahead of UTC. -/
def offsetOf? : List Char → Option Int
  | ['Z'] | ['z'] => some 0
  | sign :: h₁ :: h₀ :: ':' :: m₁ :: m₀ :: [] => do
    let digits := [h₁, h₀, m₁, m₀]
    let minutes := numeralValue [m₁, m₀]
    let ahead : Int := numeralValue [h₁, h₀] * 60 + minutes
    if digits.all Char.isDigit ∧ minutes < 60 ∧ ahead < 1440 then
      if sign = '+' then some ahead
      else if sign = '-' ∨ sign = '\u2212' then some (-ahead)
      else none
    else none
  | _ => none

def ofChars? : List Char → Option DateTime
  | y₃ :: y₂ :: y₁ :: y₀ :: '-' :: mo₁ :: mo₀ :: '-' :: d₁ :: d₀ :: mark ::
    h₁ :: h₀ :: ':' :: mi₁ :: mi₀ :: ':' :: s₁ :: s₀ :: rest => do
    let digits := [y₃, y₂, y₁, y₀, mo₁, mo₀, d₁, d₀, h₁, h₀, mi₁, mi₀, s₁, s₀]
    if digits.all Char.isDigit && (mark == 'T' || mark == 't' || mark == ' ') then
      let (nano, offset) ← match rest with
        | '.' :: tail =>
          let fraction := tail.takeWhile Char.isDigit
          if fraction.isEmpty then none
          else some (nanoOfDigits fraction, tail.drop fraction.length)
        | _ => some (0, rest)
      let date ← Date.make? (numeralValue [y₃, y₂, y₁, y₀]) (numeralValue [mo₁, mo₀])
        (numeralValue [d₁, d₀])
      let clock ← Clock.make? (numeralValue [h₁, h₀]) (numeralValue [mi₁, mi₀])
        (numeralValue [s₁, s₀]) nano
      (⟨date, clock⟩ : DateTime).minutesEarlier? (← offsetOf? offset)
    else none
  | _ => none

def ofText? (s : String) : Option DateTime := ofChars? s.toList

end Fieldwise.Calendar.Timestamp
