/-!
Days of the Gregorian calendar, extended to all years of the supported range.
-/

namespace Fieldwise.Calendar

def isLeapYear (year : Int) : Bool :=
  year % 4 == 0 && (year % 100 != 0 || year % 400 == 0)

def daysInMonth (year : Int) : Nat → Nat
  | 2 => if isLeapYear year then 29 else 28
  | 4 | 6 | 9 | 11 => 30
  | _ => 31

def daysInYear (year : Int) : Nat :=
  if isLeapYear year then 366 else 365

def Date.Valid (year : Int) (month day : Nat) : Prop :=
  (-262143 ≤ year ∧ year ≤ 262142) ∧ (1 ≤ month ∧ month ≤ 12) ∧
    (1 ≤ day ∧ day ≤ daysInMonth year month)

instance (year : Int) (month day : Nat) : Decidable (Date.Valid year month day) :=
  inferInstanceAs (Decidable ((_ ∧ _) ∧ (_ ∧ _) ∧ (_ ∧ _)))

structure Date where
  year : Int
  month : Nat
  day : Nat
  valid : Date.Valid year month day
deriving DecidableEq

namespace Date

def make? (year : Int) (month day : Nat) : Option Date :=
  if h : Valid year month day then some ⟨year, month, day, h⟩ else none

/-- Days of the year before a month begins. -/
def daysBefore (year : Int) : Nat → Nat
  | 0 => 0
  | month + 1 => if month = 0 then 0 else daysBefore year month + daysInMonth year month

/-- The day's place in its year, from 1. -/
def ordinal (d : Date) : Nat :=
  daysBefore d.year d.month + d.day

/-- The month and day at a place in the year, counting on from `month`. -/
def monthAndDay (year : Int) : Nat → Nat → Nat → Nat × Nat
  | 0, month, n => (month, n)
  | more + 1, month, n =>
    if n ≤ daysInMonth year month then (month, n)
    else monthAndDay year more (month + 1) (n - daysInMonth year month)

def ofOrdinal? (year : Int) (n : Nat) : Option Date :=
  if 1 ≤ n ∧ n ≤ daysInYear year then
    let (month, day) := monthAndDay year 11 1 n
    make? year month day
  else none

/-- Days since the last day of the year before year 1. -/
def dayNumber (d : Date) : Int :=
  let y := d.year - 1
  365 * y + y / 4 - y / 100 + y / 400 + d.ordinal

def weekday (d : Date) : Nat :=
  ((d.dayNumber - 1) % 7).toNat

/-- Days before a year begins, counted as in `dayNumber`. -/
def daysBeforeYear (year : Int) : Int :=
  365 * (year - 1) + (year - 1) / 4 - (year - 1) / 100 + (year - 1) / 400

/-- Four centuries have 146097 days, so the year is one of three. -/
def ofDayNumber? (n : Int) : Option Date :=
  let year := 400 * (n - 1) / 146097 + 1
  [year - 1, year, year + 1].findSome? fun y => ofOrdinal? y (n - daysBeforeYear y).toNat

/-! ### Weeks -/

def quarter (d : Date) : Nat := (d.month + 2) / 3

/-- The week of the year, where weeks begin on a given weekday; days before the first one are in
week 0. -/
def week (first : Nat) (d : Date) : Nat :=
  (d.ordinal + 6 - (d.weekday + 7 - first) % 7) / 7

/-- The week from Monday to Sunday, with its year: that of its Thursday. -/
def isoWeek (d : Date) : Int × Nat :=
  let thursday : Int := d.ordinal + 3 - d.weekday
  if thursday < 1 then (d.year - 1, ((thursday + daysInYear (d.year - 1) + 6) / 7).toNat)
  else if daysInYear d.year < thursday then (d.year + 1, 1)
  else (d.year, ((thursday + 6) / 7).toNat)

def firstWeekday (year : Int) : Nat := (daysBeforeYear year % 7).toNat

/-- The day of a week of a year, where weeks begin on a given weekday. -/
def ofWeek? (first : Nat) (year : Int) (week weekday : Nat) : Option Date :=
  let start := 1 + (first + 7 - firstWeekday year) % 7
  let n : Int := start + 7 * (week - 1) + ((weekday + 7 - first) % 7 : Nat)
  if 1 ≤ n then ofOrdinal? year n.toNat else none

/-- The day of a week from Monday to Sunday; it may lie outside the year of its week. -/
def ofIsoWeek? (year : Int) (week weekday : Nat) : Option Date :=
  let begins : Int := firstWeekday year
  let monday := (if begins ≤ 3 then 1 - begins else 8 - begins) + 7 * (week - 1)
  let n := monday + weekday
  if week = 0 ∨ daysInYear year < monday + 3 then none
  else if n < 1 then ofOrdinal? (year - 1) (n + daysInYear (year - 1)).toNat
  else if daysInYear year < n then ofOrdinal? (year + 1) (n - daysInYear year).toNat
  else ofOrdinal? year n.toNat

/-! ### Neighbours -/

def next? (d : Date) : Option Date :=
  make? d.year d.month (d.day + 1) <|> make? d.year (d.month + 1) 1 <|> make? (d.year + 1) 1 1

def previous? (d : Date) : Option Date :=
  if 1 < d.day then make? d.year d.month (d.day - 1)
  else if 1 < d.month then make? d.year (d.month - 1) (daysInMonth d.year (d.month - 1))
  else make? (d.year - 1) 12 31

end Date

end Fieldwise.Calendar
