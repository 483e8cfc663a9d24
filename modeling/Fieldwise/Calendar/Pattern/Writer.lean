import Fieldwise.Calendar.Iso
import Fieldwise.Calendar.Pattern

/-!
Writing dates by a pattern. A date alone has no text for the parts of a time of day, and nothing
has a text for a zone or for an unknown part.
-/

namespace Fieldwise.Calendar.Pattern

open Text

/-- A number with its sign, filled up to a width; zeros go between the two. -/
def signedText (padding : Padding) (width : Nat) (plus : Bool) (n : Int) : List Char :=
  let sign := if n < 0 then ['-'] else if plus then ['+'] else []
  let digits := numeral n.natAbs
  match padding with
  | .plain => sign ++ digits
  | .zeros => sign ++ padLeft '0' (width - sign.length) digits
  | .blanks => padLeft ' ' width (sign ++ digits)

/-- Years outside 0 to 9999 have a sign. -/
def signedYear (padding : Padding) (year : Int) : List Char :=
  if 0 ≤ year ∧ year ≤ 9999 then signedText padding 4 false year
  else signedText padding 5 true year

namespace Quantity

/-- The number of a date, or of a time of day on it. Centuries are counted in a byte. -/
def value? (d : Date) (clock : Option Clock) : Quantity → Option Int
  | year => some d.year
  | century => some (d.year / 100 % 256)
  | yearOfCentury => some (d.year % 100)
  | isoYear => some d.isoWeek.1
  | isoYearOfCentury => some (d.isoWeek.1 % 100)
  | quarter => some d.quarter
  | month => some d.month
  | day => some d.day
  | ordinal => some d.ordinal
  | weekFromSunday => some (d.week 6)
  | weekFromMonday => some (d.week 0)
  | isoWeek => some d.isoWeek.2
  | dayFromSunday => some ((d.weekday + 1) % 7)
  | dayFromMonday => some (d.weekday + 1)
  | hour => clock.map fun c => c.hour
  | hourOfHalf => clock.map fun c => if c.hour % 12 = 0 then 12 else (c.hour % 12 : Nat)
  | minute => clock.map fun c => c.minute
  | second => clock.map fun c => c.second
  | nano => clock.map fun c => c.nano
  | timestamp => clock.map fun c => DateTime.timestamp ⟨d, c⟩

/-- The least number of characters that are written, and where there is no sign the greatest that
are read, but for timestamps. -/
def width : Quantity → Nat
  | year | isoYear => 4
  | quarter | dayFromSunday | dayFromMonday => 1
  | ordinal => 3
  | nano | timestamp => 9
  | _ => 2

/-- A century has two characters, of which the first is no digit from 100 on. -/
def text (padding : Padding) (n : Int) : Quantity → List Char
  | year | isoYear => signedYear padding n
  | century =>
    if n < 100 then signedText padding 2 false n
    else [Char.ofNat ('0'.toNat + n.toNat / 10), digitChar n.toNat]
  | quantity => signedText padding quantity.width false n

end Quantity

open Piece

def halfText (small : Bool) (hour : Nat) : List Char :=
  match small, decide (hour < 12) with
  | true, true => ['a', 'm']
  | true, false => ['p', 'm']
  | false, true => ['A', 'M']
  | false, false => ['P', 'M']

def Piece.write? (d : Date) (clock : Option Clock) : Piece → Option (List Char)
  | literal c => some [c]
  | blank run => some run
  | number quantity padding => (quantity.value? d clock).map fun n => quantity.text padding n
  | shortMonthName => some (shortNameAt monthNames (d.month - 1))
  | monthName => some (nameAt monthNames (d.month - 1))
  | shortDayName => some (shortNameAt dayNames d.weekday)
  | dayName => some (nameAt dayNames d.weekday)
  | halfOfDay small => clock.map fun c => halfText small c.hour
  | fraction => clock.map fun c => fractionText c.nano
  | pointAndDigits count => clock.map fun c => '.' :: fixedNumeral count (c.nano / 10 ^ (9 - count))
  | digits count => clock.map fun c => fixedNumeral count (c.nano / 10 ^ (9 - count))
  | zoneName | offset _ | timestampMark | timestampZone | unknown => none

def write? (p : Pattern) (d : Date) (clock : Option Clock) : Option String :=
  (p.mapM (Piece.write? d clock)).map fun parts => String.ofList parts.flatten

def writeDate? (p : Pattern) (d : Date) : Option String := p.write? d none

def writeDateTime? (p : Pattern) (t : DateTime) : Option String := p.write? t.date (some t.clock)

end Fieldwise.Calendar.Pattern
