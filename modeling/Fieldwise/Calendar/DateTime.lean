import Fieldwise.Calendar.Date

/-!
Times of day, with nanoseconds and leap seconds, and dates with a time of day. No time zone is
involved: a leap second may follow any minute, but no other second.
-/

namespace Fieldwise.Calendar

def Clock.Valid (hour minute second nano : Nat) : Prop :=
  hour < 24 ∧ minute < 60 ∧ second ≤ 60 ∧ nano < 1000000000

instance (hour minute second nano : Nat) : Decidable (Clock.Valid hour minute second nano) :=
  inferInstanceAs (Decidable (_ ∧ _ ∧ _ ∧ _))

/-- Second 60 is a leap second, which is the only way to have one: a second that is not the last of
its minute is followed by the next. -/
structure Clock where
  hour : Nat
  minute : Nat
  second : Nat
  nano : Nat
  valid : Clock.Valid hour minute second nano
deriving DecidableEq

def Clock.make? (hour minute second nano : Nat) : Option Clock :=
  if h : Clock.Valid hour minute second nano then some ⟨hour, minute, second, nano, h⟩ else none

def Clock.midnight : Clock := ⟨0, 0, 0, 0, by decide⟩

structure DateTime where
  date : Date
  clock : Clock
deriving DecidableEq

def DateTime.atMidnight (d : Date) : DateTime := ⟨d, .midnight⟩

/-- Seconds since 1970 began; a leap second counts as the one before it. -/
def DateTime.timestamp (t : DateTime) : Int :=
  86400 * (t.date.dayNumber - 719163) + 3600 * t.clock.hour + 60 * t.clock.minute +
    min t.clock.second 59

def DateTime.ofTimestamp? (seconds : Int) : Option DateTime := do
  let date ← Date.ofDayNumber? (seconds / 86400 + 719163)
  let inDay := (seconds % 86400).toNat
  pure ⟨date, ← Clock.make? (inDay / 3600) (inDay / 60 % 60) (inDay % 60) 0⟩

/-- The same second of another minute, `minutes` earlier; less than a day away. -/
def DateTime.minutesEarlier? (t : DateTime) (minutes : Int) : Option DateTime := do
  let total : Int := t.clock.hour * 60 + t.clock.minute - minutes
  let date ←
    if total < 0 then t.date.previous?
    else if total < 1440 then some t.date
    else t.date.next?
  let inDay := (total % 1440).toNat
  let clock ← Clock.make? (inDay / 60) (inDay % 60) t.clock.second t.clock.nano
  pure ⟨date, clock⟩

end Fieldwise.Calendar
