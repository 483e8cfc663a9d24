import Fieldwise.Calendar.Iso
import Fieldwise.Proofs.Calendar.Days
import Fieldwise.Proofs.Calendar.DefaultFormats

/-!
Timestamps as they are written: a date of four digits for the year, a time of day with or without a
fraction, and how far that is ahead of UTC. Each of them is read, as the same moment in UTC; and
none of them can be taken for a date, or a date and time, in the default formats.
-/

namespace Fieldwise.Calendar

open Text

namespace Timestamp

/-- A difference from UTC by hours and minutes. -/
structure Offset where
  ahead : Bool
  hours : Nat
  minutes : Nat
  hours_lt : hours < 24
  minutes_lt : minutes < 60

inductive Zone
  | utc (letter : Char) (isLetter : letter = 'Z' ∨ letter = 'z')
  | offset (o : Offset)

namespace Zone

def ahead : Zone → Int
  | utc .. => 0
  | offset o => if o.ahead then o.hours * 60 + o.minutes else -(o.hours * 60 + o.minutes)

def chars : Zone → List Char
  | utc letter _ => [letter]
  | offset o =>
    (if o.ahead then '+' else '-') :: Pattern.twoDigits o.hours ++ ':' ::
      Pattern.twoDigits o.minutes

theorem ahead_bounds (z : Zone) : -1440 < z.ahead ∧ z.ahead < 1440 := by
  cases z with
  | utc => simp [ahead]
  | offset o =>
    have hhours := o.hours_lt
    have hminutes := o.minutes_lt
    simp only [ahead]
    split <;> omega

end Zone

/-- A timestamp with its parts; the fraction is given by its digits, none if it is left out. -/
structure Written where
  date : Date
  mark : Char
  hour : Nat
  minute : Nat
  second : Nat
  fraction : List Char
  zone : Zone
  fourDigits : 0 ≤ date.year ∧ date.year ≤ 9999
  isMark : mark = 'T' ∨ mark = 't' ∨ mark = ' '
  hour_lt : hour < 24
  minute_lt : minute < 60
  second_le : second ≤ 60
  decimal : ∀ c ∈ fraction, c.isDigit

theorem nanoOfDigits_lt {digits : List Char} (h : ∀ c ∈ digits, c.isDigit) :
    nanoOfDigits digits < 1000000000 := by
  have hvalue : numeralValue (digits.take 9) < 10 ^ (digits.take 9).length :=
    numeralValue_lt fun c hc => h c (List.mem_of_mem_take hc)
  have hlength : (digits.take 9).length + (9 - digits.length) = 9 := by
    rw [List.length_take]
    omega
  calc nanoOfDigits digits
      < 10 ^ (digits.take 9).length * 10 ^ (9 - digits.length) :=
        Nat.mul_lt_mul_of_pos_right hvalue (Nat.pow_pos (by decide))
    _ = 1000000000 := by rw [← Nat.pow_add, hlength]

namespace Written

variable (w : Written)

/-- The date and time as they are written, where the zone is. -/
def here : DateTime where
  date := w.date
  clock := ⟨w.hour, w.minute, w.second, nanoOfDigits w.fraction,
    w.hour_lt, w.minute_lt, w.second_le, nanoOfDigits_lt w.decimal⟩

def fractionChars : List Char := if w.fraction.isEmpty then [] else '.' :: w.fraction

/-- All that comes after the seconds. -/
def tail : List Char := w.fractionChars ++ w.zone.chars

def chars : List Char :=
  Pattern.dateChars w.date ++ w.mark :: (Pattern.clockChars w.here.clock ++ w.tail)

theorem tail_ne_nil : w.tail ≠ [] := by
  have hzone : w.zone.chars ≠ [] := by
    cases w.zone <;> simp [Zone.chars]
  simp [tail, hzone]

end Written

end Timestamp

namespace Pattern

theorem twoDigits_eq {n : Nat} (h : n < 100) : twoDigits n = [digitChar (n / 10), digitChar n] := by
  have hall : ∀ m < 100, twoDigits m = [digitChar (m / 10), digitChar m] := by decide
  exact hall n h

theorem numeralValue_digitChars {n : Nat} (h : n < 100) :
    numeralValue [digitChar (n / 10), digitChar n] = n := by
  rw [← twoDigits_eq h]
  exact numeralValue_padLeft 2 n

theorem yearText_eq {year : Int} (h : 0 ≤ year ∧ year ≤ 9999) :
    yearText year = [digitChar (year.toNat / 10 / 10 / 10), digitChar (year.toNat / 10 / 10),
      digitChar (year.toNat / 10), digitChar year.toNat] := by
  rw [yearText, if_pos h]
  rfl

end Pattern

namespace Timestamp

open Pattern

theorem offsetOf?_chars (z : Zone) : offsetOf? z.chars = some z.ahead := by
  cases z with
  | utc letter isLetter => rcases isLetter with rfl | rfl <;> rfl
  | offset o =>
    have hhours := o.hours_lt
    have hminutes := o.minutes_lt
    have hahead : (o.hours * 60 + o.minutes : Int) < 1440 := by omega
    rw [Zone.chars, twoDigits_eq (by omega), twoDigits_eq (by omega)]
    cases ho : o.ahead <;>
      simp [offsetOf?, Zone.ahead, ho, isDigit_digitChar, numeralValue_digitChars, hminutes,
        hahead, show o.hours < 100 by omega, show o.minutes < 100 by omega]

theorem Zone.exists_cons_chars (z : Zone) :
    ∃ c cs, z.chars = c :: cs ∧ c ≠ '.' ∧ c.isDigit = false := by
  cases z with
  | utc letter isLetter => exact ⟨letter, [], rfl, by rcases isLetter with rfl | rfl <;> decide⟩
  | offset o => exact ⟨_, _, rfl, by split <;> decide⟩

theorem make?_date (w : Written) : Date.make?
    (numeralValue [digitChar (w.date.year.toNat / 10 / 10 / 10),
      digitChar (w.date.year.toNat / 10 / 10), digitChar (w.date.year.toNat / 10),
      digitChar w.date.year.toNat] : Nat) w.date.month w.date.day = some w.date := by
  have hyear : ((numeralValue (fixedNumeral 4 w.date.year.toNat) : Nat) : Int) = w.date.year := by
    have hfour := w.fourDigits
    rw [numeralValue_fixedNumeral]
    omega
  exact (congrArg (Date.make? · w.date.month w.date.day) hyear).trans
    (Date.make?_of_valid w.date.valid)

theorem ofChars?_chars (w : Written) :
    ofChars? w.chars = w.here.minutesEarlier? w.zone.ahead := by
  obtain ⟨-, ⟨-, hmonth⟩, -, hday⟩ := w.date.valid
  have hmonth : w.date.month < 100 := by omega
  have hday : w.date.day < 100 :=
    Nat.lt_of_le_of_lt (hday.trans (daysInMonth_le w.date.year w.date.month)) (by decide)
  have hhour : w.hour < 100 := Nat.lt_trans w.hour_lt (by decide)
  have hminute : w.minute < 100 := Nat.lt_trans w.minute_lt (by decide)
  have hsecond : w.second < 100 := Nat.lt_of_le_of_lt w.second_le (by decide)
  have hhere : w.here.clock.hour = w.hour ∧ w.here.clock.minute = w.minute ∧
    w.here.clock.second = w.second := ⟨rfl, rfl, rfl⟩
  have hclock : Clock.make? w.hour w.minute w.second (nanoOfDigits w.fraction) =
      some w.here.clock := dif_pos w.here.clock.valid
  have hmark : (w.mark == 'T' || w.mark == 't' || w.mark == ' ') = true := by
    simpa [or_assoc] using w.isMark
  obtain ⟨c, cs, hchars, hpoint, hdigit⟩ := w.zone.exists_cons_chars
  have hoffset : offsetOf? (c :: cs) = some w.zone.ahead := hchars ▸ offsetOf?_chars w.zone
  simp only [Written.chars, dateChars, clockChars, hhere, yearText_eq w.fourDigits,
    twoDigits_eq hmonth, twoDigits_eq hday, twoDigits_eq hhour, twoDigits_eq hminute,
    twoDigits_eq hsecond, List.cons_append, List.nil_append]
  simp only [ofChars?, List.all_cons, List.all_nil, isDigit_digitChar, hmark, Bool.and_self,
    if_true, numeralValue_digitChars hmonth, numeralValue_digitChars hday,
    numeralValue_digitChars hhour, numeralValue_digitChars hminute,
    numeralValue_digitChars hsecond, make?_date]
  by_cases hfraction : w.fraction = []
  · have htail : w.tail = c :: cs := by
      simp [Written.tail, Written.fractionChars, hfraction, hchars]
    have hnano : nanoOfDigits w.fraction = 0 := by
      rw [hfraction]
      rfl
    rw [hnano] at hclock
    simp only [htail]
    split
    · next heq => exact absurd (List.cons.inj heq).1 hpoint
    · simp only [hclock, hoffset, Option.bind_eq_bind, Option.bind_some]
      rfl
  · have htail : w.tail = '.' :: (w.fraction ++ c :: cs) := by
      simp [Written.tail, Written.fractionChars, hfraction, hchars]
    have htake : (w.fraction ++ c :: cs).takeWhile Char.isDigit = w.fraction :=
      takeWhile_append_of_head w.decimal (by simpa using hdigit)
    simp only [htail, htake, List.isEmpty_iff, hfraction, if_false, List.drop_left, hclock,
      hoffset, Option.bind_eq_bind, Option.bind_some]
    rfl

end Timestamp

/-! ### In the default formats -/

namespace Pattern

open Piece

theorem readFrom?_end {parts : Parts} {rest : List Char} (h : rest ≠ []) :
    readFrom? parts rest [] = none := by
  simp [readFrom?, h]

/-- After the date there is more. -/
theorem readDate?_timestamp (w : Timestamp.Written) :
    (ofString ({} : Settings).dateFormat).readDate? (String.ofList w.chars) = none := by
  rw [date_format, readDate?, read?, String.toList_ofList, Timestamp.Written.chars,
    ← List.append_nil isoDate, readFrom?_date, readFrom?_end (by simp)]
  rfl

/-- The date and time may be separated by another mark, and after the seconds there is more. -/
theorem readDateTime?_timestamp (w : Timestamp.Written) :
    (ofString ({} : Settings).dateTimeFormat).readDateTime? (String.ofList w.chars) = none := by
  rw [dateTime_format, readDateTime?, read?, String.toList_ofList, Timestamp.Written.chars,
    readFrom?_date]
  by_cases hmark : w.mark = 'T'
  · rw [hmark, readFrom?_literal, ← List.append_nil fullClock,
      readFrom?_clock _ _ _ rfl rfl rfl rfl, readFrom?_end w.tail_ne_nil]
    rfl
  · simp [readFrom?, Piece.read?, hmark]

end Pattern

namespace Timestamp

theorem Zone.not_blank (z : Zone) : ∀ c ∈ z.chars, isBlankChar c = false := by
  cases z with
  | utc letter isLetter =>
    rintro c hc
    obtain rfl := List.mem_singleton.mp hc
    rcases isLetter with rfl | rfl <;> rfl
  | offset o =>
    intro c hc
    simp only [Zone.chars, List.mem_append, List.mem_cons] at hc
    rcases hc with (rfl | hc) | rfl | hc
    · split <;> rfl
    · exact isBlankChar_of_isDigit (isDigit_of_mem_padLeft hc)
    · rfl
    · exact isBlankChar_of_isDigit (isDigit_of_mem_padLeft hc)

/-- It begins with a digit and ends with its zone; in between there may be a blank. -/
theorem tight_chars (w : Written) : Tight w.chars where
  head c hc := by
    simp only [Written.chars, Pattern.dateChars, Pattern.yearText_eq w.fourDigits,
      List.cons_append, List.head?_cons, Option.mem_some] at hc
    exact hc ▸ isBlankChar_of_isDigit (isDigit_digitChar _)
  last c hc := by
    obtain ⟨d, ds, hchars, -⟩ := w.zone.exists_cons_chars
    have hlast : w.chars.getLast? = w.zone.chars.getLast? := by
      have hfront : w.chars = (Pattern.dateChars w.date ++
          w.mark :: (Pattern.clockChars w.here.clock ++ w.fractionChars)) ++ w.zone.chars := by
        simp [Written.chars, Written.tail]
      rw [hfront, List.getLast?_append, hchars]
      simp [List.getLast?_cons]
    rw [hlast] at hc
    exact w.zone.not_blank c (List.mem_of_mem_getLast? hc)

end Timestamp

end Fieldwise.Calendar
