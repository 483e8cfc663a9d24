import Fieldwise.Calendar.DateTime

/-!
Counting days and minutes. The day after another has the next number, over the ends of months and
of years, leap years or not; and a point in time that is moved by minutes has its number moved by
as many.
-/

namespace Fieldwise.Calendar

theorem le_daysInMonth (year : Int) (month : Nat) : 28 ≤ daysInMonth year month := by
  unfold daysInMonth
  split
  · split <;> decide
  all_goals decide

namespace Date

theorem make?_of_valid {year : Int} {month day : Nat} (h : Valid year month day) :
    make? year month day = some ⟨year, month, day, h⟩ := dif_pos h

theorem make?_eq_none {year : Int} {month day : Nat} (h : ¬ Valid year month day) :
    make? year month day = none := dif_neg h

theorem daysBefore_succ (year : Int) {month : Nat} (h : 1 ≤ month) :
    daysBefore year (month + 1) = daysBefore year month + daysInMonth year month := by
  rw [daysBefore, if_neg (by omega)]

theorem daysBefore_december (year : Int) : daysBefore year 12 + 31 = daysInYear year := by
  have hfebruary : daysBefore year 12 = daysInMonth year 2 + 306 := by
    have hfirst : daysBefore year 1 = 0 := rfl
    simp (disch := decide) only [daysBefore_succ, hfirst, daysInMonth]
    omega
  rw [hfebruary, daysInMonth, daysInYear]
  split <;> rfl

theorem daysBeforeYear_succ (year : Int) :
    daysBeforeYear (year + 1) = daysBeforeYear year + daysInYear year := by
  have hleap : isLeapYear year = true ↔
      year % 4 = 0 ∧ (year % 100 ≠ 0 ∨ year % 400 = 0) := by
    simp [isLeapYear]
  simp only [daysBeforeYear, daysInYear, hleap]
  split <;> omega

theorem dayNumber_eq (d : Date) :
    d.dayNumber = daysBeforeYear d.year + daysBefore d.year d.month + d.day := by
  simp only [dayNumber, daysBeforeYear, ordinal]
  omega

/-- The one day comes right before the other: in a month, over the end of a month, or over the end
of a year. -/
def Precedes (d d' : Date) : Prop :=
  (d'.year = d.year ∧ d'.month = d.month ∧ d'.day = d.day + 1) ∨
  (d'.year = d.year ∧ d'.month = d.month + 1 ∧ d.day = daysInMonth d.year d.month ∧ d'.day = 1) ∨
  (d'.year = d.year + 1 ∧ d.month = 12 ∧ d'.month = 1 ∧ d.day = 31 ∧ d'.day = 1)

theorem Precedes.dayNumber {d d' : Date} (h : d.Precedes d') :
    d'.dayNumber = d.dayNumber + 1 := by
  have hmonth := daysBefore_succ d.year d.valid.2.1.1
  rw [dayNumber_eq, dayNumber_eq]
  rcases h with ⟨hyear, hsame, hday⟩ | ⟨hyear, hnext, hlast, hday⟩ |
    ⟨hyear, hlast, hnext, hday, hday'⟩
  · rw [hyear, hsame, hday]
    omega
  · rw [hyear, hnext, hlast, hday]
    omega
  · -- the year is over with December
    have hend := daysBefore_december d.year
    have hfirst : daysBefore (d.year + 1) 1 = 0 := rfl
    rw [hyear, hlast, hnext, hday, hday', daysBeforeYear_succ, hfirst]
    omega

theorem exists_next? {d : Date} (h : d.year < 262142) :
    ∃ d', d.next? = some d' ∧ d.Precedes d' := by
  obtain ⟨⟨hlow, hhigh⟩, ⟨hfirst, hlast⟩, hday⟩ := d.valid
  by_cases hmore : d.day + 1 ≤ daysInMonth d.year d.month
  · have hvalid : Valid d.year d.month (d.day + 1) :=
      ⟨⟨hlow, hhigh⟩, ⟨hfirst, hlast⟩, by omega, hmore⟩
    refine ⟨⟨d.year, d.month, d.day + 1, hvalid⟩, ?_, .inl ⟨rfl, rfl, rfl⟩⟩
    rw [next?, make?_of_valid hvalid]
    rfl
  · have hfull : make? d.year d.month (d.day + 1) = none :=
      make?_eq_none fun hvalid => hmore hvalid.2.2.2
    have hone (year : Int) (month : Nat) : 1 ≤ daysInMonth year month :=
      Nat.le_trans (by decide) (le_daysInMonth year month)
    by_cases hmonth : d.month + 1 ≤ 12
    · have hvalid : Valid d.year (d.month + 1) 1 :=
        ⟨⟨hlow, hhigh⟩, ⟨by omega, hmonth⟩, by decide, hone ..⟩
      refine ⟨⟨d.year, d.month + 1, 1, hvalid⟩, ?_, .inr (.inl ⟨rfl, rfl, by omega, rfl⟩)⟩
      rw [next?, hfull, make?_of_valid hvalid]
      rfl
    · have hend : d.month = 12 := by omega
      have hover : make? d.year (d.month + 1) 1 = none :=
        make?_eq_none fun hvalid => hmonth hvalid.2.1.2
      have hvalid : Valid (d.year + 1) 1 1 :=
        ⟨⟨by omega, by omega⟩, by decide, by decide, hone ..⟩
      have hdecember : daysInMonth d.year d.month = 31 := by
        rw [hend]
        rfl
      refine ⟨⟨d.year + 1, 1, 1, hvalid⟩, ?_, .inr (.inr ⟨rfl, hend, rfl, by omega, rfl⟩)⟩
      rw [next?, hfull, hover, make?_of_valid hvalid]
      rfl

theorem exists_previous? {d : Date} (h : -262143 < d.year) :
    ∃ d', d.previous? = some d' ∧ d'.Precedes d := by
  obtain ⟨⟨hlow, hhigh⟩, ⟨hfirst, hlast⟩, hday, hlastDay⟩ := d.valid
  unfold previous?
  split
  · have hvalid : Valid d.year d.month (d.day - 1) :=
      ⟨⟨hlow, hhigh⟩, ⟨hfirst, hlast⟩, by omega, by omega⟩
    refine ⟨_, make?_of_valid hvalid, .inl ⟨rfl, rfl, ?_⟩⟩
    show d.day = d.day - 1 + 1
    omega
  · have hone : d.day = 1 := by omega
    split
    · have hvalid : Valid d.year (d.month - 1) (daysInMonth d.year (d.month - 1)) := by
        refine ⟨⟨hlow, hhigh⟩, ⟨by omega, by omega⟩, ?_, Nat.le_refl _⟩
        exact Nat.le_trans (by decide) (le_daysInMonth d.year (d.month - 1))
      refine ⟨_, make?_of_valid hvalid, .inr (.inl ⟨rfl, ?_, rfl, hone⟩)⟩
      show d.month = d.month - 1 + 1
      omega
    · have hvalid : Valid (d.year - 1) 12 31 :=
        ⟨⟨by omega, by omega⟩, by decide, by decide, Nat.le_refl _⟩
      refine ⟨_, make?_of_valid hvalid, .inr (.inr ⟨?_, rfl, by omega, rfl, hone⟩)⟩
      show d.year = d.year - 1 + 1
      omega

end Date

/-- Minutes since midnight; a leap second belongs to the minute that it follows. -/
def Clock.minuteOfDay (c : Clock) : Int := c.hour * 60 + c.minute

theorem Clock.minuteOfDay_bounds (c : Clock) : 0 ≤ c.minuteOfDay ∧ c.minuteOfDay < 1440 := by
  obtain ⟨hhour, hminute, -⟩ := c.valid
  unfold minuteOfDay
  omega

/-- Minutes since the beginning of the day before year 1. -/
def DateTime.minuteNumber (t : DateTime) : Int := t.date.dayNumber * 1440 + t.clock.minuteOfDay

theorem DateTime.dayNumber_eq (t : DateTime) : t.date.dayNumber = t.minuteNumber / 1440 := by
  obtain ⟨hlow, hhigh⟩ := t.clock.minuteOfDay_bounds
  unfold minuteNumber
  omega

/-- Less than a day earlier or later there is a point in time, as long as the years reach. It is on
the same date exactly if midnight is not passed. -/
theorem DateTime.exists_minutesEarlier? {t : DateTime} {minutes : Int}
    (hminutes : -1440 < minutes ∧ minutes < 1440)
    (hyear : -262143 < t.date.year ∧ t.date.year < 262142) :
    ∃ t', t.minutesEarlier? minutes = some t' ∧
      t'.minuteNumber = t.minuteNumber - minutes ∧
      (t'.date = t.date ↔
        0 ≤ t.clock.minuteOfDay - minutes ∧ t.clock.minuteOfDay - minutes < 1440) := by
  obtain ⟨hlow, hhigh⟩ := t.clock.minuteOfDay_bounds
  obtain ⟨-, -, hsecond, hnano⟩ := t.clock.valid
  generalize htotal : t.clock.minuteOfDay - minutes = total
  have hclock : Clock.Valid ((total % 1440).toNat / 60) ((total % 1440).toNat % 60)
      t.clock.second t.clock.nano := by
    refine ⟨?_, ?_, hsecond, hnano⟩ <;> omega
  have hmoved : t.minutesEarlier? minutes =
      (if total < 0 then t.date.previous? else if total < 1440 then some t.date
        else t.date.next?).map fun d => ⟨d, ⟨_, _, _, _, hclock⟩⟩ := by
    have hminute : (t.clock.hour * 60 + t.clock.minute - minutes : Int) = total := htotal
    simp only [minutesEarlier?, hminute, Clock.make?, dif_pos hclock]
    split
    · cases t.date.previous? <;> rfl
    · split
      · rfl
      · cases t.date.next? <;> rfl
  obtain ⟨d, hd, hnumber, hsame⟩ : ∃ d,
      (if total < 0 then t.date.previous? else if total < 1440 then some t.date
        else t.date.next?) = some d ∧
      d.dayNumber = t.date.dayNumber + total / 1440 ∧
      (0 ≤ total ∧ total < 1440 → d = t.date) := by
    by_cases hbefore : total < 0
    · obtain ⟨d, hd, hprecedes⟩ := Date.exists_previous? hyear.1
      have hnumber := hprecedes.dayNumber
      exact ⟨d, by rw [if_pos hbefore, hd], by omega, by omega⟩
    · by_cases hafter : total < 1440
      · exact ⟨t.date, by rw [if_neg hbefore, if_pos hafter], by omega, fun _ => rfl⟩
      · obtain ⟨d, hd, hprecedes⟩ := Date.exists_next? hyear.2
        have hnumber := hprecedes.dayNumber
        exact ⟨d, by rw [if_neg hbefore, if_neg hafter, hd], by omega, by omega⟩
  refine ⟨⟨d, ⟨_, _, _, _, hclock⟩⟩, ?_, ?_, fun heq => ?_, hsame⟩
  · rw [hmoved, hd]
    rfl
  · simp only [minuteNumber, Clock.minuteOfDay] at *
    omega
  · have hdate : d = t.date := heq
    rw [hdate] at hnumber
    omega

end Fieldwise.Calendar
