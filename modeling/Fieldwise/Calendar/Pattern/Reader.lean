import Fieldwise.Calendar.Pattern
import Fieldwise.Calendar.Pattern.Writer

/-!
Reading dates by a pattern. The pieces of the pattern collect parts of a date; a part that is found
twice has to be the same both times. The parts then have to determine a date, and a time of day
where one is wanted, and to agree with it.
-/

namespace Fieldwise.Calendar.Pattern

open Text Quantity Piece

/-- What a text has told about a date so far. The hour is kept as the half of the day and the hour
within it, the offset in seconds. -/
structure Parts where
  year : Option Int
  century : Option Nat
  yearOfCentury : Option Nat
  isoYear : Option Int
  isoYearOfCentury : Option Nat
  quarter : Option Nat
  month : Option Nat
  day : Option Nat
  ordinal : Option Nat
  weekFromSunday : Option Nat
  weekFromMonday : Option Nat
  isoWeek : Option Nat
  weekday : Option Nat
  half : Option Nat
  hourOfHalf : Option Nat
  minute : Option Nat
  second : Option Nat
  nano : Option Nat
  timestamp : Option Nat
  offset : Option Int

def Parts.nothing : Parts :=
  ⟨none, none, none, none, none, none, none, none, none, none, none, none, none, none, none, none,
    none, none, none, none⟩

/-- The part after a value for it has been found. -/
def agree? {α : Type} [DecidableEq α] (known : Option α) (found : α) : Option (Option α) :=
  match known with
  | none => some (some found)
  | some k => if k = found then some known else none

/-- A run of at least one and at most `width` digits, after any white space. -/
def readNumber? (width : Nat) (cs : List Char) : Option (Nat × List Char) :=
  let cs := trimStart cs
  let digits := (cs.take width).takeWhile Char.isDigit
  if digits.isEmpty then none else some (numeralValue digits, cs.drop digits.length)

/-- A year has four digits at most, or a sign and any number of digits. -/
def readYear? (cs : List Char) : Option (Int × List Char) :=
  match trimStart cs with
  | '-' :: rest => signed rest fun n => -n
  | '+' :: rest => signed rest id
  | rest => (readNumber? 4 rest).map fun (n, rest) => (n, rest)
where
  signed (rest : List Char) (sign : Int → Int) : Option (Int × List Char) :=
    let digits := rest.takeWhile Char.isDigit
    if digits.isEmpty then none
    else some (sign (numeralValue digits), rest.drop digits.length)

def Quantity.read? (cs : List Char) : Quantity → Option (Int × List Char)
  | year | isoYear => readYear? cs
  | timestamp => (readNumber? cs.length cs).map fun (n, rest) => (n, rest)
  | quantity => (readNumber? quantity.width cs).map fun (n, rest) => (n, rest)

def within? (low high : Nat) (n : Int) : Option Nat :=
  if low ≤ n ∧ n ≤ high then some n.toNat else none

def Parts.setHour? (parts : Parts) (hour : Nat) : Option Parts := do
  pure { parts with
    half := ← agree? parts.half (hour / 12),
    hourOfHalf := ← agree? parts.hourOfHalf (hour % 12) }

/-- The parts with a number that has been found, if it is in its range. -/
def Quantity.set? (parts : Parts) (n : Int) : Quantity → Option Parts
  | year => do pure { parts with year := ← agree? parts.year n }
  | century => do pure { parts with century := ← agree? parts.century (← within? 0 99 n) }
  | yearOfCentury => do
    pure { parts with yearOfCentury := ← agree? parts.yearOfCentury (← within? 0 99 n) }
  | isoYear => do pure { parts with isoYear := ← agree? parts.isoYear n }
  | isoYearOfCentury => do
    pure { parts with isoYearOfCentury := ← agree? parts.isoYearOfCentury (← within? 0 99 n) }
  | quarter => do pure { parts with quarter := ← agree? parts.quarter (← within? 1 4 n) }
  | month => do pure { parts with month := ← agree? parts.month (← within? 1 12 n) }
  | day => do pure { parts with day := ← agree? parts.day (← within? 1 31 n) }
  | ordinal => do pure { parts with ordinal := ← agree? parts.ordinal (← within? 1 366 n) }
  | weekFromSunday => do
    pure { parts with weekFromSunday := ← agree? parts.weekFromSunday (← within? 0 53 n) }
  | weekFromMonday => do
    pure { parts with weekFromMonday := ← agree? parts.weekFromMonday (← within? 0 53 n) }
  | isoWeek => do pure { parts with isoWeek := ← agree? parts.isoWeek (← within? 1 53 n) }
  | dayFromSunday => do
    pure { parts with weekday := ← agree? parts.weekday (((← within? 0 6 n) + 6) % 7) }
  | dayFromMonday => do
    pure { parts with weekday := ← agree? parts.weekday ((← within? 1 7 n) - 1) }
  | hour => do parts.setHour? (← within? 0 23 n)
  | hourOfHalf => do
    pure { parts with hourOfHalf := ← agree? parts.hourOfHalf ((← within? 1 12 n) % 12) }
  | minute => do pure { parts with minute := ← agree? parts.minute (← within? 0 59 n) }
  | second => do pure { parts with second := ← agree? parts.second (← within? 0 60 n) }
  | nano => do pure { parts with nano := ← agree? parts.nano (← within? 0 999999999 n) }
  | timestamp => do
    pure { parts with timestamp := ← agree? parts.timestamp (← within? 0 (2 ^ 63 - 1) n) }

def readHalf? : List Char → Option (Nat × List Char)
  | c :: m :: rest =>
    if m.toLower = 'm' then
      if c.toLower = 'a' then some (0, rest)
      else if c.toLower = 'p' then some (1, rest)
      else none
    else none
  | _ => none

/-- Exactly `count` digits, as billionths. -/
def readDigits? (count : Nat) (cs : List Char) : Option (Nat × List Char) :=
  let digits := (cs.take count).takeWhile Char.isDigit
  if digits.length = count then some (nanoOfDigits digits, cs.drop count) else none

/-- Any number of digits, as billionths; those after the ninth do not count. -/
def readFraction? (cs : List Char) : Option (Nat × List Char) :=
  let digits := cs.takeWhile Char.isDigit
  if digits.isEmpty then none else some (nanoOfDigits digits, cs.drop digits.length)

/-- The minutes of an offset, after any colons and white space. -/
def readMinutes? (mayLack : Bool) (cs : List Char) : Option (Nat × List Char) :=
  match cs.dropWhile fun c => c == ':' || isBlankChar c with
  | [] => if mayLack then some (0, []) else none
  | m₁ :: m₀ :: rest =>
    if m₁.isDigit ∧ m₀.isDigit ∧ numeralValue [m₁, m₀] < 60 then
      some (numeralValue [m₁, m₀], rest)
    else none
  | _ => none

/-- Seconds ahead of UTC, from a sign, two digits for hours and two for minutes, or from the letter
for UTC itself. -/
def readOffset? (mayBeUtc mayLackMinutes : Bool) (cs : List Char) : Option (Int × List Char) :=
  match cs with
  | c :: rest =>
    if mayBeUtc ∧ (c = 'Z' ∨ c = 'z') then some (0, rest)
    else
      match rest with
      | h₁ :: h₀ :: rest =>
        if (c = '+' ∨ c = '-' ∨ c = '\u2212') ∧ h₁.isDigit ∧ h₀.isDigit then do
          let (minutes, rest) ← readMinutes? mayLackMinutes rest
          let seconds : Int := numeralValue [h₁, h₀] * 3600 + minutes * 60
          pure (if c = '+' then seconds else -seconds, rest)
        else none
      | _ => none
  | [] => none

/-- The zone of a timestamp may be `UTC`, in any case. -/
def readTimestampZone? (cs : List Char) : Option (Int × List Char) :=
  match afterIgnoringCase? ['u', 't', 'c'] (trimStart cs) with
  | some rest => some (0, rest)
  | none => readOffset? true false (trimStart cs)

def Piece.read? (parts : Parts) (cs : List Char) : Piece → Option (Parts × List Char)
  | literal c => match cs with
    | [] => none
    | x :: rest => if x = c then some (parts, rest) else none
  | blank _ => some (parts, trimStart cs)
  | number quantity _ => do
    let (n, rest) ← quantity.read? cs
    pure (← quantity.set? parts n, rest)
  | shortMonthName => do
    let (index, rest) ← readShortName? monthNames cs
    pure ({ parts with month := ← agree? parts.month (index + 1) }, rest)
  | monthName => do
    let (index, rest) ← readName? monthNames cs
    pure ({ parts with month := ← agree? parts.month (index + 1) }, rest)
  | shortDayName => do
    let (index, rest) ← readShortName? dayNames cs
    pure ({ parts with weekday := ← agree? parts.weekday index }, rest)
  | dayName => do
    let (index, rest) ← readName? dayNames cs
    pure ({ parts with weekday := ← agree? parts.weekday index }, rest)
  | halfOfDay _ => do
    let (half, rest) ← readHalf? cs
    pure ({ parts with half := ← agree? parts.half half }, rest)
  | fraction => match cs with
    | '.' :: rest => do
      let (n, rest) ← readFraction? rest
      pure ({ parts with nano := ← agree? parts.nano n }, rest)
    | _ => some (parts, cs)
  | pointAndDigits count => match cs with
    | '.' :: rest => do
      let (n, rest) ← readDigits? count rest
      pure ({ parts with nano := ← agree? parts.nano n }, rest)
    | _ => some (parts, cs)
  | digits count => do
    let (n, rest) ← readDigits? count cs
    pure ({ parts with nano := ← agree? parts.nano n }, rest)
  | zoneName => some (parts, cs.dropWhile (!isBlankChar ·))
  | offset lax => do
    let (seconds, rest) ← readOffset? lax lax (trimStart cs)
    pure ({ parts with offset := ← agree? parts.offset seconds }, rest)
  | timestampMark => match cs with
    | c :: rest => if c = 'T' ∨ c = 't' ∨ c = ' ' then some (parts, rest) else none
    | [] => none
  | timestampZone => do
    let (seconds, rest) ← readTimestampZone? cs
    pure ({ parts with offset := ← agree? parts.offset seconds }, rest)
  | unknown => none

def readFrom? (parts : Parts) (cs : List Char) : Pattern → Option Parts
  | [] => if cs.isEmpty then some parts else none
  | piece :: pieces => do
    let (parts, rest) ← piece.read? parts cs
    readFrom? parts rest pieces

def read? (p : Pattern) (s : String) : Option Parts :=
  readFrom? .nothing s.toList p

/-- The year in full, where one is told. Two digits alone mean 1970 to 2069, and a century or its
years tell of no year before 0. -/
def fullYear? : (year : Option Int) → (century ofCentury : Option Nat) → Option (Option Int)
  | y, none, none => some y
  | some y, c, r =>
    if 0 ≤ y ∧ c.all (· = y / 100) ∧ r.all (· = y % 100) then some (some y) else none
  | none, some c, some r => some (some (100 * c + r))
  | none, none, some r => some (some (r + if r < 70 then 2000 else 1900))
  | none, some _, none => none

namespace Parts

def agreesWith (parts : Parts) (d : Date) : Bool :=
  parts.year.all (· = d.year) && parts.century.all (fun c => (c : Int) = d.year / 100) &&
    parts.yearOfCentury.all (fun r => 0 ≤ d.year ∧ (r : Int) = d.year % 100) &&
    parts.isoYear.all (· = d.isoWeek.1) &&
    parts.isoYearOfCentury.all (fun r => 0 ≤ d.isoWeek.1 ∧ (r : Int) = d.isoWeek.1 % 100) &&
    parts.quarter.all (· = d.quarter) && parts.month.all (· = d.month) &&
    parts.day.all (· = d.day) && parts.ordinal.all (· = d.ordinal) &&
    parts.weekFromSunday.all (· = d.week 6) && parts.weekFromMonday.all (· = d.week 0) &&
    parts.isoWeek.all (· = d.isoWeek.2) && parts.weekday.all (· = d.weekday)

/-- The date that some of the parts determine; which of them it is settled by is fixed. -/
def candidate? (parts : Parts) (year isoYear : Option Int) : Option Date :=
  match year, parts.month, parts.day, parts.ordinal with
  | some y, some month, some day, _ => Date.make? y month day
  | some y, _, _, some n => Date.ofOrdinal? y n
  | _, _, _, _ =>
    match year, parts.weekFromSunday, parts.weekFromMonday, parts.weekday with
    | some y, some week, _, some weekday => Date.ofWeek? 6 y week weekday
    | some y, _, some week, some weekday => Date.ofWeek? 0 y week weekday
    | _, _, _, _ => do Date.ofIsoWeek? (← isoYear) (← parts.isoWeek) (← parts.weekday)

def date? (parts : Parts) : Option Date := do
  let year ← fullYear? parts.year parts.century parts.yearOfCentury
  let isoYear ← fullYear? parts.isoYear none parts.isoYearOfCentury
  let d ← parts.candidate? year isoYear
  if parts.agreesWith d then some d else none

/-- Seconds may be left out; a fraction needs them. -/
def clock? (parts : Parts) : Option Clock := do
  let hour := 12 * (← parts.half) + (← parts.hourOfHalf)
  let minute ← parts.minute
  match parts.second, parts.nano with
  | none, some _ => none
  | second, nano => Clock.make? hour minute (second.getD 0) (nano.getD 0)

/-- Adds what a timestamp tells. A leap second is told by it as the second before or after. -/
def complete? (parts : Parts) (seconds : Int) : Option Parts := do
  let t ← DateTime.ofTimestamp? seconds
  let t ←
    if parts.second ≠ some 60 ∨ t.clock.second = 59 then some t
    else if t.clock.second = 0 then DateTime.ofTimestamp? (seconds - 1)
    else none
  let parts ← parts.setHour? t.clock.hour
  pure { parts with
    year := ← agree? parts.year t.date.year
    ordinal := ← agree? parts.ordinal t.date.ordinal
    minute := ← agree? parts.minute t.clock.minute
    second := ←
      if parts.second = some 60 then some parts.second
      else agree? parts.second t.clock.second }

/-- A date and a time of day, which a timestamp has to agree with; or, where they are not told in
full, the point in time of the timestamp, which they have to agree with. -/
def dateTime? (parts : Parts) : Option DateTime :=
  match parts.date?, parts.clock? with
  | some date, some clock =>
    let t : DateTime := ⟨date, clock⟩
    let isTold (n : Nat) : Bool := n = t.timestamp ∨ (clock.second = 60 ∧ n = t.timestamp + 1)
    if parts.timestamp.all isTold then some t else none
  | _, _ => do
    let parts ← parts.complete? (← parts.timestamp)
    pure ⟨← parts.date?, ← parts.clock?⟩

end Parts

def readDate? (p : Pattern) (s : String) : Option Date := do
  (← p.read? s).date?

def readDateTime? (p : Pattern) (s : String) : Option DateTime := do
  (← p.read? s).dateTime?

end Fieldwise.Calendar.Pattern
