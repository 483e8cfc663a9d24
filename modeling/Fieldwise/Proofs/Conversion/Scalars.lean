import Fieldwise.Conversion.Coercion
import Fieldwise.Heap
import Fieldwise.Proofs.Calendar.DefaultFormats
import Fieldwise.Proofs.Conversion.Rendering

/-!
What is shown of a value and taken back for the type of its property is the value again. With the
default formats everything can be shown; fractions of a second are not shown, and a JSON null is
taken for no value at all.
-/

namespace Fieldwise

/-- Dates and points in time are written in the default formats. -/
structure Settings.HasDefaultFormats (s : Settings) : Prop where
  date : s.dateFormat = ({} : Settings).dateFormat
  dateTime : s.dateTimeFormat = ({} : Settings).dateTimeFormat

/-- A reference to an object of a type. -/
def Heap.Refers (heap : Heap) (typeName : String) (v : PropertyValue) : Prop :=
  ∃ h, v = .reference h ∧ h < heap.length ∧ (heap.get h).typeName = typeName

/-- Null or a value of the declared type. -/
def PropertyType.Holds (heap : Heap) : PropertyType → PropertyValue → Prop
  | _, .null => True
  | .text, .text _ => True
  | .integer, .integer _ => True
  | .decimal, .decimal _ => True
  | .boolean, .boolean _ => True
  | .date, .date _ => True
  | .dateTime, .dateTime _ => True
  | .json, .json _ => True
  | .reference target, v => heap.Refers target v
  | .collection target, .list items => ∀ item ∈ items, heap.Refers target item
  | _, _ => False

def PropertyValue.scalarType? : PropertyValue → Option PropertyType
  | text _ => some .text
  | integer _ => some .integer
  | decimal _ => some .decimal
  | boolean _ => some .boolean
  | date _ => some .date
  | dateTime _ => some .dateTime
  | json _ => some .json
  | null | reference _ | list _ => none

theorem PropertyType.Holds.eq_of_scalarType? {heap : Heap} {type t : PropertyType}
    {v : PropertyValue} (h : type.Holds heap v) (hv : v.scalarType? = some t) : type = t := by
  cases type with
  | reference target =>
    cases v with
    | null | reference => cases hv
    | _ =>
      obtain ⟨g, hg, -⟩ := h
      cases hg
  | collection target =>
    cases v with
    | null | list => cases hv
    | _ => exact h.elim
  | _ =>
    cases v with
    | null => cases hv
    | _ =>
      first
        | exact Option.some.inj hv
        | exact h.elim

/-- The types whose values are taken back as they were shown. -/
def PropertyType.lossless : List PropertyType := [text, integer, boolean, date, dateTime, json]

/-- Whole seconds only, and no JSON null. -/
def PropertyValue.IsShownInFull : PropertyValue → Prop
  | dateTime t => t.clock.nano = 0
  | json v => v ≠ .null
  | _ => True

namespace Coercion

open Calendar

theorem int64?_toInt (i : Int64) : int64? i.toInt = some i := by
  have hlow : -2 ^ 63 ≤ i.toInt := i.le_toInt
  have hhigh : i.toInt < 2 ^ 63 := i.toInt_lt
  rw [int64?, if_pos ⟨hlow, hhigh⟩, Int64.ofInt_toInt]

variable {s : Settings}

theorem dateOfText?_default (hs : s.HasDefaultFormats) (d : Date) :
    dateOfText? s (Text.trim (String.ofList (Pattern.dateChars d))) = some d := by
  rw [Pattern.trim_written fun c => Pattern.isWritten_of_mem_dateChars, dateOfText?, hs.date,
    Pattern.readDate?_default]
  rfl

theorem dateTimeOfText?_default (hs : s.HasDefaultFormats) {t : DateTime}
    (hnano : t.clock.nano = 0) :
    dateTimeOfText? s (Text.trim (String.ofList (Pattern.dateTimeChars t))) = some t := by
  rw [Pattern.trim_written fun c => Pattern.isWritten_of_mem_dateTimeChars, dateTimeOfText?,
    hs.dateTime, Pattern.readDateTime?_default hnano]
  rfl

end Coercion

variable {s : Settings}

theorem render?_date (hs : s.HasDefaultFormats) (identifier : Handle → String)
    (d : Calendar.Date) : render? s identifier (.date d) =
      some (.text (String.ofList (Calendar.Pattern.dateChars d))) := by
  rw [render?, hs.date, Calendar.Pattern.writeDate?_default]
  rfl

theorem render?_dateTime (hs : s.HasDefaultFormats) (identifier : Handle → String)
    (t : Calendar.DateTime) : render? s identifier (.dateTime t) =
      some (.text (String.ofList (Calendar.Pattern.dateTimeChars t))) := by
  rw [render?, hs.dateTime, Calendar.Pattern.writeDateTime?_default]
  rfl

theorem Settings.HasDefaultFormats.covers (hs : s.HasDefaultFormats) (v : PropertyValue) :
    s.covers v = true := by
  refine Settings.covers_of_isWritable ?_ ?_ v
  · rw [hs.date]
    decide +kernel
  · rw [hs.dateTime]
    decide +kernel

/-- A value that is shown in full is taken back as itself. -/
theorem coerce_render (hs : s.HasDefaultFormats) {heap : Heap} {type : PropertyType}
    {v : PropertyValue} (htype : type ∈ PropertyType.lossless) (hv : type.Holds heap v)
    (hfull : v.IsShownInFull) (identifier : Handle → String) (property : String) :
    ∃ shown, render? s identifier v = some shown ∧ coerce s property type shown = .ok v ∧
      (shown.isNull → v.isNull) := by
  -- the type of a value that is not null is told by the value
  cases v with
  | null => exact ⟨.null, rfl, rfl, id⟩
  | boolean b =>
    obtain rfl : type = .boolean := hv.eq_of_scalarType? rfl
    exact ⟨.boolean b, rfl, rfl, nofun⟩
  | integer i =>
    obtain rfl : type = .integer := hv.eq_of_scalarType? rfl
    refine ⟨.ofInt i.toInt, rfl, ?_, nofun⟩
    simp [coerce, Json.ofInt, Json.isNull, Coercion.value?, Coercion.toInteger?,
      Json.Number.toInt?, Coercion.int64?_toInt]
  | decimal d => cases type <;> simp_all [PropertyType.Holds, PropertyType.lossless]
  | text t =>
    obtain rfl : type = .text := hv.eq_of_scalarType? rfl
    exact ⟨.text t, rfl, rfl, nofun⟩
  | date d =>
    obtain rfl : type = .date := hv.eq_of_scalarType? rfl
    refine ⟨_, render?_date hs identifier d, ?_, nofun⟩
    simp [coerce, Json.isNull, Coercion.value?, Json.text?, Coercion.dateOfText?_default hs]
  | dateTime t =>
    obtain rfl : type = .dateTime := hv.eq_of_scalarType? rfl
    refine ⟨_, render?_dateTime hs identifier t, ?_, nofun⟩
    have hread := Coercion.dateTimeOfText?_default hs hfull
    simp [coerce, Json.isNull, Coercion.value?, Json.text?, hread]
  | json j =>
    obtain rfl : type = .json := hv.eq_of_scalarType? rfl
    have hj : j.isNull = false := by cases j <;> simp_all [PropertyValue.IsShownInFull, Json.isNull]
    refine ⟨j, rfl, ?_, fun h => absurd h (by simp [hj])⟩
    simp [coerce, hj, Coercion.value?]
  | reference h =>
    cases type <;> simp_all [PropertyType.Holds, PropertyType.lossless]
  | list items =>
    cases type <;> simp_all [PropertyType.Holds, PropertyType.lossless]

end Fieldwise
