import Fieldwise.Calendar.Pattern.Reader
import Fieldwise.Proofs.Text.Numerals
import Fieldwise.Proofs.Text.Trimming
import Fieldwise.Settings

/-!
The default formats tell dates, and points in time up to the second, apart: every date has a text,
whatever its year, which has no white space and is read back as the date.
-/

namespace Fieldwise

namespace Calendar

open Text

theorem daysInMonth_le (year : Int) (month : Nat) : daysInMonth year month ≤ 31 := by
  unfold daysInMonth
  split
  · split <;> decide
  all_goals decide

namespace Pattern

open Padding Quantity Piece

theorem trimStart_digits_append {digits : List Char} (hne : digits ≠ [])
    (hdigits : ∀ c ∈ digits, c.isDigit) (rest : List Char) :
    trimStart (digits ++ rest) = digits ++ rest := by
  obtain ⟨d, ds, rfl⟩ := List.exists_cons_of_ne_nil hne
  apply trimStart_of_head
  rintro c ⟨⟩
  exact isBlankChar_of_isDigit (hdigits d (by simp))

theorem readNumber?_append {width : Nat} {digits : List Char} (hlength : digits.length = width)
    (hwidth : 0 < width) (hdigits : ∀ c ∈ digits, c.isDigit) (rest : List Char) :
    readNumber? width (digits ++ rest) = some (numeralValue digits, rest) := by
  have hne : digits ≠ [] := List.ne_nil_of_length_pos (hlength ▸ hwidth)
  have htake : ((digits ++ rest).take width).takeWhile Char.isDigit = digits := by
    rw [← hlength, List.take_left, List.takeWhile_eq_self_iff.mpr hdigits]
  simp only [readNumber?, trimStart_digits_append hne hdigits, htake]
  simp [hne]

def twoDigits (n : Nat) : List Char := padLeft '0' 2 (numeral n)

theorem readNumber?_twoDigits {n : Nat} (h : n < 100) (rest : List Char) :
    readNumber? 2 (twoDigits n ++ rest) = some (n, rest) := by
  have hlength : (twoDigits n).length = 2 := length_padLeft (length_numeral_le (by decide) h)
  rw [readNumber?_append hlength (by decide) fun c hc => isDigit_of_mem_padLeft hc, twoDigits,
    numeralValue_padLeft]

/-- Years of four digits have no sign; all others have one, and are read to their last digit. -/
theorem readYear?_yearText (year : Int) {rest : List Char}
    (hrest : ∀ c ∈ rest.head?, c.isDigit = false) :
    readYear? (yearText year ++ rest) = some (year, rest) := by
  unfold yearText
  split
  next hfour =>
    have hlength : (fixedNumeral 4 year.toNat).length = 4 := length_fixedNumeral 4 _
    have hdigits : ∀ c ∈ fixedNumeral 4 year.toNat, c.isDigit :=
      fun c hc => isDigit_of_mem_fixedNumeral hc
    have hvalue : ((numeralValue (fixedNumeral 4 year.toNat) : Nat) : Int) = year := by
      rw [numeralValue_fixedNumeral]
      omega
    have hread := readNumber?_append hlength (by decide) hdigits rest
    obtain ⟨d, ds, hds⟩ := List.exists_cons_of_length_eq_add_one hlength
    have hd : d.isDigit := hdigits d (by simp [hds])
    have hstart := trimStart_digits_append (by simp [hds]) hdigits rest
    rw [hds] at hstart hread hvalue ⊢
    rw [readYear?, hstart]
    split
    next heq =>
      obtain ⟨rfl, -⟩ := List.cons.inj heq
      exact absurd hd (by decide)
    next heq =>
      obtain ⟨rfl, -⟩ := List.cons.inj heq
      exact absurd hd (by decide)
    next => simp only [hread, Option.map_some, hvalue]
  next hmore =>
    have hsigned (sign : Int → Int) :
        readYear?.signed (paddedNumeral 4 year.natAbs ++ rest) sign =
          some (sign year.natAbs, rest) := by
      have htake : (paddedNumeral 4 year.natAbs ++ rest).takeWhile Char.isDigit =
          paddedNumeral 4 year.natAbs :=
        takeWhile_append_of_head (fun c hc => isDigit_of_mem_padLeft hc) hrest
      have hne : paddedNumeral 4 year.natAbs ≠ [] := padLeft_numeral_ne_nil _ _ _
      have hvalue : numeralValue (paddedNumeral 4 year.natAbs) = year.natAbs :=
        numeralValue_padLeft _ _
      simp only [readYear?.signed, htake, hvalue]
      simp [hne]
    by_cases hneg : year < 0
    · have hyear : -(year.natAbs : Int) = year := by omega
      simp only [hneg, if_true, List.cons_append]
      exact (hsigned fun n => -n).trans (by rw [hyear])
    · have hyear : (year.natAbs : Int) = year := by omega
      simp only [hneg, if_false, List.cons_append]
      exact (hsigned id).trans (by rw [id, hyear])

/-! ### The parts of the default formats -/

theorem date_format : ofString ({} : Settings).dateFormat = isoDate := by
  decide

theorem dateTime_format :
    ofString ({} : Settings).dateTimeFormat = isoDate ++ literal 'T' :: fullClock := by
  decide

def dateChars (d : Date) : List Char :=
  yearText d.year ++ '-' :: twoDigits d.month ++ '-' :: twoDigits d.day

def clockChars (c : Clock) : List Char :=
  twoDigits c.hour ++ ':' :: twoDigits c.minute ++ ':' :: twoDigits c.second

def dateTimeChars (t : DateTime) : List Char := dateChars t.date ++ 'T' :: clockChars t.clock

theorem signedText_natCast (width n : Nat) :
    signedText zeros width false n = padLeft '0' width (numeral n) := by
  have hsign : ¬ (n : Int) < 0 := by omega
  simp [signedText, hsign]

theorem signedYear_zeros (y : Int) : signedYear zeros y = yearText y := by
  unfold signedYear yearText
  split
  next hfour =>
    have hcast : (y.toNat : Int) = y := by omega
    rw [← padLeft_numeral_eq (by decide) (by omega), ← signedText_natCast, hcast]
  next hmore => by_cases hneg : y < 0 <;> simp [signedText, hneg, paddedNumeral]

theorem writeDate?_default (d : Date) :
    (ofString ({} : Settings).dateFormat).writeDate? d = some (String.ofList (dateChars d)) := by
  rw [date_format]
  simp [writeDate?, write?, isoDate, Piece.write?, Quantity.value?, Quantity.text,
    Quantity.width, signedYear_zeros, signedText_natCast, dateChars, twoDigits]

theorem writeDateTime?_default (t : DateTime) :
    (ofString ({} : Settings).dateTimeFormat).writeDateTime? t =
      some (String.ofList (dateTimeChars t)) := by
  rw [dateTime_format]
  simp [writeDateTime?, write?, isoDate, fullClock, Piece.write?, Quantity.value?,
    Quantity.text, Quantity.width, signedYear_zeros, signedText_natCast, dateTimeChars, dateChars,
    clockChars, twoDigits]

section

variable {parts parts' : Parts} {n : Nat} (rest : List Char) (pieces : Pattern)

theorem readFrom?_literal (c : Char) :
    readFrom? parts (c :: rest) (literal c :: pieces) = readFrom? parts rest pieces := by
  simp [readFrom?, Piece.read?]

theorem readFrom?_year (h : parts.year = none) (y : Int) (padding : Padding)
    (hrest : ∀ c ∈ rest.head?, c.isDigit = false) :
    readFrom? parts (yearText y ++ rest) (number year padding :: pieces) =
      readFrom? { parts with year := some y } rest pieces := by
  simp [readFrom?, Piece.read?, Quantity.read?, Quantity.set?, readYear?_yearText y hrest, agree?,
    h]

/-- Of two digits, as most numbers. -/
def Quantity.IsShort (quantity : Quantity) : Prop :=
  ∀ cs, quantity.read? cs = (readNumber? 2 cs).map fun (n, rest) => (n, rest)

theorem readFrom?_short {quantity : Quantity} (padding : Padding) (hshort : quantity.IsShort)
    (hn : n < 100) (hset : quantity.set? parts n = some parts') :
    readFrom? parts (twoDigits n ++ rest) (number quantity padding :: pieces) =
      readFrom? parts' rest pieces := by
  have hread : quantity.read? (twoDigits n ++ rest) = some ((n : Int), rest) := by
    rw [hshort, readNumber?_twoDigits hn]
    rfl
  simp [readFrom?, Piece.read?, hread, hset]

theorem within?_natCast {low high : Nat} (h : low ≤ n ∧ n ≤ high) :
    within? low high n = some n := by
  simp [within?, h]

theorem readFrom?_date (d : Date) :
    readFrom? .nothing (dateChars d ++ rest) (isoDate ++ pieces) =
      readFrom? { Parts.nothing with
        year := some d.year, month := some d.month, day := some d.day } rest pieces := by
  obtain ⟨-, hmonth, hday⟩ := d.valid
  have hlast : d.day ≤ 31 := hday.2.trans (daysInMonth_le d.year d.month)
  have hmonth' := within?_natCast hmonth
  have hday' := within?_natCast ⟨hday.1, hlast⟩
  rw [dateChars, List.append_assoc, List.cons_append, List.append_assoc, List.cons_append]
  simp only [isoDate, List.cons_append, List.nil_append]
  rw [readFrom?_year _ _ rfl _ _ (by simp), readFrom?_literal,
    readFrom?_short _ _ _ (fun _ => rfl) (by omega) (by simp [Quantity.set?, hmonth', agree?]; rfl),
    readFrom?_literal,
    readFrom?_short _ _ _ (fun _ => rfl) (by omega) (by simp [Quantity.set?, hday', agree?]; rfl)]

/-- Second 60 is read as well. -/
theorem readFrom?_clock (c : Clock) (hhalf : parts.half = none)
    (hhour : parts.hourOfHalf = none) (hminute : parts.minute = none)
    (hsecond : parts.second = none) :
    readFrom? parts (clockChars c ++ rest) (fullClock ++ pieces) =
      readFrom? { parts with
        half := some (c.hour / 12), hourOfHalf := some (c.hour % 12),
        minute := some c.minute, second := some c.second } rest pieces := by
  obtain ⟨hh, hm, hs, -⟩ := c.valid
  have hhour' : within? 0 23 c.hour = some c.hour := within?_natCast (by omega)
  have hminute' : within? 0 59 c.minute = some c.minute := within?_natCast (by omega)
  have hsecond' : within? 0 60 c.second = some c.second := within?_natCast (by omega)
  rw [clockChars, List.append_assoc, List.cons_append, List.append_assoc, List.cons_append]
  simp only [fullClock, List.cons_append, List.nil_append]
  rw [readFrom?_short _ _ _ (fun _ => rfl) (by omega)
      (by simp [Quantity.set?, Parts.setHour?, hhour', hhalf, hhour, agree?]; rfl),
    readFrom?_literal,
    readFrom?_short _ _ _ (fun _ => rfl) (by omega)
      (by simp [Quantity.set?, hminute', hminute, agree?]; rfl),
    readFrom?_literal,
    readFrom?_short _ _ _ (fun _ => rfl) (by omega)
      (by simp [Quantity.set?, hsecond', hsecond, agree?]; rfl)]

end

theorem readDate?_default (d : Date) :
    (ofString ({} : Settings).dateFormat).readDate? (String.ofList (dateChars d)) = some d := by
  have hread := readFrom?_date [] [] d
  have hmake : Date.make? d.year d.month d.day = some d := by simp [Date.make?, d.valid]
  rw [List.append_nil, List.append_nil] at hread
  rw [date_format, readDate?, read?, String.toList_ofList, hread]
  simp [readFrom?, Parts.date?, fullYear?, Parts.candidate?, Parts.agreesWith, Parts.nothing, hmake]

/-- The default format has no place for fractions of a second. -/
theorem readDateTime?_default {t : DateTime} (hnano : t.clock.nano = 0) :
    (ofString ({} : Settings).dateTimeFormat).readDateTime? (String.ofList (dateTimeChars t)) =
      some t := by
  obtain ⟨d, h, m, s, nano, hvalid⟩ := t
  obtain rfl : nano = 0 := hnano
  have hdate := readFrom?_date ('T' :: clockChars ⟨h, m, s, 0, hvalid⟩) (literal 'T' :: fullClock) d
  have hclock {parts : Parts} := @readFrom?_clock parts [] [] ⟨h, m, s, 0, hvalid⟩
  have hmakeDate : Date.make? d.year d.month d.day = some d := by simp [Date.make?, d.valid]
  have hmakeClock : Clock.make? (12 * (h / 12) + h % 12) m s 0 = some ⟨h, m, s, 0, hvalid⟩ := by
    simp [Clock.make?, Nat.div_add_mod, hvalid]
  simp only [List.append_nil] at hclock
  rw [dateTime_format, readDateTime?, read?, String.toList_ofList, dateTimeChars, hdate,
    readFrom?_literal, hclock rfl rfl rfl rfl]
  simp [readFrom?, Parts.dateTime?, Parts.date?, fullYear?, Parts.candidate?, Parts.agreesWith,
    Parts.clock?, Parts.nothing, hmakeDate, hmakeClock]

/-- What is written by the default formats: digits, signs and marks. -/
def isWritten (c : Char) : Bool := c.isDigit || c ∈ ['-', '+', ':', 'T']

theorem isWritten_of_mem_twoDigits {n : Nat} {c : Char} (h : c ∈ twoDigits n) : isWritten c := by
  simp [isWritten, isDigit_of_mem_padLeft h]

theorem isWritten_of_mem_yearText {y : Int} {c : Char} (h : c ∈ yearText y) : isWritten c := by
  unfold yearText at h
  split at h
  · simp [isWritten, isDigit_of_mem_fixedNumeral h]
  · rcases List.mem_cons.mp h with rfl | h
    · split <;> rfl
    · simp [isWritten, isDigit_of_mem_padLeft h]

theorem isWritten_of_mem_dateChars {d : Date} {c : Char} (h : c ∈ dateChars d) : isWritten c := by
  simp only [dateChars, List.mem_append, List.mem_cons] at h
  rcases h with (h | rfl | h) | rfl | h
  · exact isWritten_of_mem_yearText h
  · rfl
  · exact isWritten_of_mem_twoDigits h
  · rfl
  · exact isWritten_of_mem_twoDigits h

theorem isWritten_of_mem_clockChars {k : Clock} {c : Char} (h : c ∈ clockChars k) :
    isWritten c := by
  simp only [clockChars, List.mem_append, List.mem_cons] at h
  rcases h with (h | rfl | h) | rfl | h
  · exact isWritten_of_mem_twoDigits h
  · rfl
  · exact isWritten_of_mem_twoDigits h
  · rfl
  · exact isWritten_of_mem_twoDigits h

theorem isWritten_of_mem_dateTimeChars {t : DateTime} {c : Char} (h : c ∈ dateTimeChars t) :
    isWritten c := by
  simp only [dateTimeChars, List.mem_append, List.mem_cons] at h
  rcases h with h | rfl | h
  · exact isWritten_of_mem_dateChars h
  · rfl
  · exact isWritten_of_mem_clockChars h

theorem trim_written {cs : List Char} (h : ∀ c ∈ cs, isWritten c) :
    trim (String.ofList cs) = String.ofList cs := by
  apply trim_of_no_blank
  intro c hc
  have hwritten := h c (by simpa using hc)
  simp only [isWritten, Bool.or_eq_true, decide_eq_true_eq, List.mem_cons, List.not_mem_nil,
    or_false] at hwritten
  rcases hwritten with hdigit | rfl | rfl | rfl | rfl
  · exact isBlankChar_of_isDigit hdigit
  all_goals rfl

end Pattern

end Calendar

end Fieldwise
