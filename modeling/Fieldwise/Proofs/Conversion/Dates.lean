import Fieldwise.Proofs.Calendar.Timestamps
import Fieldwise.Proofs.Conversion.Returning

/-!
What date a timestamp is taken for. It is the date in UTC at that moment, so it is the date that is
written there exactly if the way to UTC does not lead past midnight.
-/

namespace Fieldwise

open Calendar

namespace Coercion

variable {s : Settings}

/-- A timestamp has none of the default formats. -/
theorem dateOfText?_timestamp (hs : s.HasDefaultFormats) (w : Timestamp.Written) :
    dateOfText? s (String.ofList w.chars) =
      (w.here.minutesEarlier? w.zone.ahead).map (·.date) := by
  have hmoment : Timestamp.ofText? (String.ofList w.chars) =
      w.here.minutesEarlier? w.zone.ahead := by
    rw [Timestamp.ofText?, String.toList_ofList, Timestamp.ofChars?_chars]
  rw [dateOfText?, dateTimeOfText?, hs.date, hs.dateTime, Pattern.readDate?_timestamp,
    Pattern.readDateTime?_timestamp, hmoment]
  cases w.here.minutesEarlier? w.zone.ahead <;> rfl

end Coercion

variable {s : Settings} {property text : String}

theorem coerce_date_iff {d : Date} : coerce s property .date (.text text) = .ok (.date d) ↔
    Coercion.dateOfText? s (Text.trim text) = some d := by
  rw [coerce_eq_ok]
  simp [Coercion.value?, Json.text?, Json.isNull, Option.bind_eq_some_iff]

/-- Every timestamp is taken for a date: the one in UTC at that moment, which is the written one
exactly if midnight does not lie between local time and UTC. -/
theorem coerce_date_timestamp (hs : s.HasDefaultFormats) (property : String)
    (w : Timestamp.Written) (htext : Text.StandsIn w.chars text.toList) :
    ∃ d, coerce s property .date (.text text) = .ok (.date d) ∧
      d.dayNumber = (w.here.minuteNumber - w.zone.ahead) / 1440 ∧
      (d = w.date ↔ 0 ≤ w.here.clock.minuteOfDay - w.zone.ahead ∧
        w.here.clock.minuteOfDay - w.zone.ahead < 1440) := by
  have hyear : -262143 < w.date.year ∧ w.date.year < 262142 := by
    have hfour := w.fourDigits
    omega
  obtain ⟨t, ht, hnumber, hsame⟩ :=
    DateTime.exists_minutesEarlier? (t := w.here) w.zone.ahead_bounds hyear
  have htrim : Text.trim text = String.ofList w.chars :=
    congrArg String.ofList ((Timestamp.tight_chars w).trimChars_eq htext)
  refine ⟨t.date, coerce_date_iff.mpr ?_, ?_, hsame⟩
  · rw [htrim, Coercion.dateOfText?_timestamp hs, ht]
    rfl
  · rw [t.dayNumber_eq, hnumber]

/-- The last evening of a year, five hours behind UTC. -/
def newYearsEve : Timestamp.Written where
  date := ⟨2024, 12, 31, by decide⟩
  mark := 'T'
  hour := 23
  minute := 30
  second := 0
  fraction := ['5']
  zone := .offset ⟨false, 5, 0, by decide, by decide⟩
  fourDigits := by decide
  isMark := .inl rfl
  hour_lt := by decide
  minute_lt := by decide
  second_le := by decide
  decimal := List.all_eq_true.mp rfl

theorem newYearsEve_taken_for_new_year :
    Settings.HasDefaultFormats {} ∧
    Text.StandsIn newYearsEve.chars " 2024-12-31T23:30:00.5-05:00".toList ∧
    ∃ d, coerce {} "launch_date" .date (.text " 2024-12-31T23:30:00.5-05:00") = .ok (.date d) ∧
      d.dayNumber = newYearsEve.date.dayNumber + 1 ∧ d ≠ newYearsEve.date := by
  have hdefault : Settings.HasDefaultFormats {} := ⟨rfl, rfl⟩
  have hstands : Text.StandsIn newYearsEve.chars " 2024-12-31T23:30:00.5-05:00".toList :=
    ⟨[' '], [], List.all_eq_true.mp rfl, by simp, by decide +kernel⟩
  obtain ⟨d, hd, hnumber, hsame⟩ :=
    coerce_date_timestamp hdefault "launch_date" newYearsEve hstands
  exact ⟨hdefault, hstands, d, hd, by rw [hnumber]; decide +kernel,
    fun heq => absurd (hsame.mp heq) (by decide +kernel)⟩

/-- Half past midnight, two hours ahead of UTC. -/
def earlyMorning : Timestamp.Written where
  date := ⟨2024, 3, 9, by decide⟩
  mark := 'T'
  hour := 0
  minute := 30
  second := 0
  fraction := []
  zone := .offset ⟨true, 2, 0, by decide, by decide⟩
  fourDigits := by decide
  isMark := .inl rfl
  hour_lt := by decide
  minute_lt := by decide
  second_le := by decide
  decimal := List.all_eq_true.mp rfl

/-- The date that is written there is not kept. -/
theorem earlyMorning_taken_for_day_before :
    Text.StandsIn earlyMorning.chars "2024-03-09T00:30:00+02:00".toList ∧
    coerce {} "launch_date" .date (.text "2024-03-09T00:30:00+02:00") =
      .ok (.date ⟨2024, 3, 8, by decide⟩) ∧
    (⟨2024, 3, 8, by decide⟩ : Date) ≠ earlyMorning.date :=
  ⟨⟨[], [], by simp, by simp, by decide +kernel⟩, coerce_date_iff.mpr (by decide +kernel),
    by decide⟩

end Fieldwise
