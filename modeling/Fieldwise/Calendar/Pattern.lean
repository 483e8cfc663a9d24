import Fieldwise.Text.Basic

/-!
Date patterns: text in which `%` and a letter stand for a part of a date or a time of day. A
pattern is read into its pieces once, and reading and writing of dates work on the pieces.
-/

namespace Fieldwise.Calendar

/-! ### Names

English names of months and weekdays. The first three letters of each are its short name. -/

def monthNames : List String :=
  ["January", "February", "March", "April", "May", "June", "July", "August", "September",
    "October", "November", "December"]

def dayNames : List String :=
  ["Monday", "Tuesday", "Wednesday", "Thursday", "Friday", "Saturday", "Sunday"]

def nameAt (names : List String) (index : Nat) : List Char :=
  ((names[index]?).getD "").toList

def shortNameAt (names : List String) (index : Nat) : List Char :=
  (nameAt names index).take 3

/-- What follows a text in front of `cs`, letter case aside. -/
def afterIgnoringCase? : List Char → List Char → Option (List Char)
  | [], cs => some cs
  | _ :: _, [] => none
  | p :: ps, c :: cs => if p.toLower = c.toLower then afterIgnoringCase? ps cs else none

def readShortName? (names : List String) (cs : List Char) : Option (Nat × List Char) :=
  (List.range names.length).findSome? fun index =>
    (afterIgnoringCase? (shortNameAt names index) cs).map fun rest => (index, rest)

/-- Also takes the rest of the full name if it is there. -/
def readName? (names : List String) (cs : List Char) : Option (Nat × List Char) := do
  let (index, rest) ← readShortName? names cs
  pure (index, (afterIgnoringCase? ((nameAt names index).drop 3) rest).getD rest)

/-! ### Pieces -/

namespace Pattern

/-- What a number is filled up with. -/
inductive Padding
  | plain
  | zeros
  | blanks
deriving DecidableEq

/-- The numbers that tell a date and a time of day. -/
inductive Quantity
  | year
  | century
  | yearOfCentury
  | isoYear
  | isoYearOfCentury
  | quarter
  | month
  | day
  | ordinal
  | weekFromSunday
  | weekFromMonday
  | isoWeek
  /-- From 0 for Sunday. -/
  | dayFromSunday
  /-- From 1 for Monday. -/
  | dayFromMonday
  | hour
  | hourOfHalf
  | minute
  | second
  | nano
  /-- Seconds since 1970 began in UTC. -/
  | timestamp
deriving DecidableEq

inductive Piece
  | literal (c : Char)
  | blank (run : List Char)
  | number (quantity : Quantity) (padding : Padding)
  | shortMonthName
  | monthName
  | shortDayName
  | dayName
  | halfOfDay (small : Bool)
  /-- A point and as many digits as needed, or nothing. -/
  | fraction
  | pointAndDigits (count : Nat)
  | digits (count : Nat)
  | zoneName
  /-- Hours and minutes ahead of UTC. A lax one may lack the minutes, or be the letter for UTC. -/
  | offset (lax : Bool)
  /-- What stands between the date and the time of a timestamp. -/
  | timestampMark
  | timestampZone
  /-- A `%` that no part follows. -/
  | unknown
deriving DecidableEq

end Pattern

abbrev Pattern := List Pattern.Piece

namespace Pattern

open Padding Quantity Piece

def isoDate : Pattern :=
  [number year zeros, literal '-', number month zeros, literal '-', number day zeros]

def slashedDate : Pattern :=
  [number month zeros, literal '/', number day zeros, literal '/', number yearOfCentury zeros]

def fullClock : Pattern :=
  [number hour zeros, literal ':', number minute zeros, literal ':', number second zeros]

/-- White space may stand in front of the marks. -/
def timestampPieces : Pattern :=
  [number year zeros, blank [], literal '-', number month zeros, blank [], literal '-',
    number day zeros, timestampMark, number hour zeros, blank [], literal ':', number minute zeros,
    blank [], literal ':', number second zeros, fraction, blank [], timestampZone]

def ofLetter : Char → Option Pattern
  | 'Y' => some [number year zeros]
  | 'C' => some [number century zeros]
  | 'y' => some [number yearOfCentury zeros]
  | 'G' => some [number isoYear zeros]
  | 'g' => some [number isoYearOfCentury zeros]
  | 'q' => some [number quarter plain]
  | 'm' => some [number month zeros]
  | 'd' => some [number day zeros]
  | 'e' => some [number day blanks]
  | 'j' => some [number ordinal zeros]
  | 'U' => some [number weekFromSunday zeros]
  | 'W' => some [number weekFromMonday zeros]
  | 'V' => some [number isoWeek zeros]
  | 'w' => some [number dayFromSunday plain]
  | 'u' => some [number dayFromMonday plain]
  | 'b' | 'h' => some [shortMonthName]
  | 'B' => some [monthName]
  | 'a' => some [shortDayName]
  | 'A' => some [dayName]
  | 'H' => some [number hour zeros]
  | 'k' => some [number hour blanks]
  | 'I' => some [number hourOfHalf zeros]
  | 'l' => some [number hourOfHalf blanks]
  | 'M' => some [number minute zeros]
  | 'S' => some [number second zeros]
  | 'f' => some [number nano zeros]
  | 's' => some [number timestamp plain]
  | 'P' => some [halfOfDay true]
  | 'p' => some [halfOfDay false]
  | 'Z' => some [zoneName]
  | 'z' => some [offset false]
  | '+' => some timestampPieces
  | 'F' => some isoDate
  | 'D' | 'x' => some slashedDate
  | 'T' | 'X' => some fullClock
  | 'R' => some [number hour zeros, literal ':', number minute zeros]
  | 'r' => some [number hourOfHalf zeros, literal ':', number minute zeros, literal ':',
      number second zeros, blank [' '], halfOfDay false]
  | 'v' => some [number day blanks, literal '-', shortMonthName, literal '-', number year zeros]
  | 'c' => some ([shortDayName, blank [' '], shortMonthName, blank [' '], number day blanks,
      blank [' ']] ++ fullClock ++ [blank [' '], number year zeros])
  | 'n' => some [blank ['\n']]
  | 't' => some [blank ['\t']]
  | '%' => some [literal '%']
  | _ => none

/-- Only what is one number can be padded in another way. -/
def padded? (padding : Padding) : Pattern → Option Pattern
  | [number quantity _] => some [number quantity padding]
  | _ => none

/-- What has been read after a `%`, before the character that ends it. -/
inductive Opening
  | bare
  | padding (p : Padding)
  | lax
  | point
  | pointAndCount (count : Nat)
  | count (count : Nat)
  | colons (count : Nat)

namespace Opening

def extended? : Opening → Char → Option Opening
  | bare, '-' => some (padding plain)
  | bare, '0' => some (padding zeros)
  | bare, '_' => some (padding blanks)
  | bare, '#' => some lax
  | bare, '.' => some point
  | bare, '3' => some (count 3)
  | bare, '6' => some (count 6)
  | bare, '9' => some (count 9)
  | bare, ':' => some (colons 1)
  | colons 1, ':' => some (colons 2)
  | colons 2, ':' => some (colons 3)
  | point, '3' => some (pointAndCount 3)
  | point, '6' => some (pointAndCount 6)
  | point, '9' => some (pointAndCount 9)
  | _, _ => none

/-- The pieces that a character completes. -/
def pieces? : Opening → Char → Option Pattern
  | bare, c => ofLetter c
  | padding p, c => (ofLetter c).bind (padded? p)
  | lax, 'z' => some [offset true]
  | colons _, 'z' => some [offset false]
  | point, 'f' => some [fraction]
  | pointAndCount n, 'f' => some [pointAndDigits n]
  | count n, 'f' => some [digits n]
  | _, _ => none

end Opening

/-- Puts a blank character in front; neighbouring ones are one run. -/
def consBlank (c : Char) : Pattern → Pattern
  | blank run :: rest => blank (c :: run) :: rest
  | rest => blank [c] :: rest

def ofChars : Option Opening → List Char → Pattern
  | none, [] => []
  | some _, [] => [unknown]
  | none, '%' :: rest => ofChars (some .bare) rest
  | none, c :: rest =>
    if Text.isBlankChar c then consBlank c (ofChars none rest) else literal c :: ofChars none rest
  | some opening, c :: rest =>
    match opening.extended? c with
    | some longer => ofChars (some longer) rest
    | none => (opening.pieces? c).getD [unknown] ++ ofChars none rest

def ofString (s : String) : Pattern := ofChars none s.toList

end Pattern

end Fieldwise.Calendar
