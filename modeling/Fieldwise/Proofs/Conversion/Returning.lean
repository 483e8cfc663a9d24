import Fieldwise.Proofs.Conversion.Scalars

/-!
Which values come back as they were, shown with the default formats and taken for a type again. Null
does for every type. Another value does only for its own type, and apart from decimals, which may
lose digits, every scalar does that can be shown in full: dates of any year, points in time up to
the second, leap seconds among them, and every JSON value but null.
-/

namespace Fieldwise

open Calendar

theorem PropertyType.holds_of_scalarType? {heap : Heap} {type : PropertyType} {v : PropertyValue}
    (hv : v.scalarType? = some type) : type.Holds heap v := by
  cases v with
  | null | reference | list => cases hv
  | _ =>
    obtain rfl := Option.some.inj hv
    trivial

theorem PropertyType.mem_lossless {type : PropertyType} {v : PropertyValue}
    (hv : v.scalarType? = some type) (hdecimal : type ≠ .decimal) : type ∈ lossless := by
  cases v with
  | null | reference | list => cases hv
  | decimal d =>
    obtain rfl := Option.some.inj hv
    exact absurd rfl hdecimal
  | _ =>
    obtain rfl := Option.some.inj hv
    simp [lossless]

theorem Coercion.scalarType?_of_value? {s : Settings} {type : PropertyType} {shown : Json}
    {v : PropertyValue} (h : value? s shown type = some v) : v.scalarType? = some type := by
  cases type with
  | text | integer | decimal | boolean =>
    obtain ⟨-, -, rfl⟩ := Option.map_eq_some_iff.mp h
    rfl
  | date | dateTime =>
    obtain ⟨_, _, h⟩ := Option.bind_eq_some_iff.mp h
    obtain ⟨_, _, h⟩ := Option.bind_eq_some_iff.mp h
    obtain rfl := Option.some.inj h
    rfl
  | json =>
    obtain rfl := Option.some.inj h
    rfl
  | reference target | collection target => cases h

theorem coerce_eq_ok {s : Settings} {property : String} {type : PropertyType} {shown : Json}
    {v : PropertyValue} : coerce s property type shown = .ok v ↔
      shown.isNull ∧ v = .null ∨ shown.isNull = false ∧ Coercion.value? s shown type = some v := by
  unfold coerce
  cases hnull : shown.isNull with
  | true => simp [eq_comm]
  | false => cases hvalue : Coercion.value? s shown type <;> simp

def Calendar.DateTime.wholeSecond (t : DateTime) : DateTime where
  date := t.date
  clock := ⟨t.clock.hour, t.clock.minute, t.clock.second, 0, by
    obtain ⟨hhour, hminute, hsecond, -⟩ := t.clock.valid
    exact ⟨hhour, hminute, hsecond, by decide⟩⟩

theorem Calendar.Pattern.dateTimeChars_wholeSecond (t : DateTime) :
    dateTimeChars t.wholeSecond = dateTimeChars t := rfl

theorem isShownInFull_of_coerce {s : Settings} (hs : s.HasDefaultFormats)
    {identifier : Handle → String} {property : String} {type : PropertyType} {v : PropertyValue}
    {shown : Json} (hshown : render? s identifier v = some shown)
    (hcoerce : coerce s property type shown = .ok v) : v.IsShownInFull := by
  cases v with
  | dateTime t =>
    obtain rfl : .text (String.ofList (Pattern.dateTimeChars t)) = shown := by
      rw [render?_dateTime hs] at hshown
      exact Option.some.inj hshown
    obtain ⟨-, hv⟩ | ⟨-, hvalue⟩ := coerce_eq_ok.mp hcoerce
    · cases hv
    obtain rfl : .dateTime = type := Option.some.inj (Coercion.scalarType?_of_value? hvalue)
    -- The text of the whole second is the same, and it is read as that.
    have hread := Coercion.dateTimeOfText?_default hs (t := t.wholeSecond) rfl
    rw [Pattern.dateTimeChars_wholeSecond] at hread
    have hsame : PropertyValue.dateTime t.wholeSecond = .dateTime t := by
      simpa [Coercion.value?, Json.text?, hread] using hvalue
    show t.clock.nano = 0
    rw [← PropertyValue.dateTime.inj hsame]
    rfl
  | json j =>
    rintro rfl
    obtain rfl : .null = shown := Option.some.inj hshown
    cases hcoerce
  | _ => trivial

/-- With the default formats exactly these values come back, decimals apart: null for any type, and
what is shown in full for its own type. Points in time are those a `Clock` holds, with leap seconds
at the end of a minute only. -/
theorem returns_iff (identifier : Handle → String) (property : String) (type : PropertyType)
    (v : PropertyValue) (hdecimal : v.scalarType? ≠ some .decimal) :
    (∃ shown, render? {} identifier v = some shown ∧ coerce {} property type shown = .ok v) ↔
      v = .null ∨ v.scalarType? = some type ∧ v.IsShownInFull := by
  have hs : ({} : Settings).HasDefaultFormats := ⟨rfl, rfl⟩
  constructor
  · rintro ⟨shown, hshown, hcoerce⟩
    obtain ⟨-, hnull⟩ | ⟨-, hvalue⟩ := coerce_eq_ok.mp hcoerce
    · exact .inl hnull
    · exact .inr ⟨Coercion.scalarType?_of_value? hvalue,
        isShownInFull_of_coerce hs hshown hcoerce⟩
  · rintro (rfl | ⟨hv, hfull⟩)
    · exact ⟨.null, rfl, rfl⟩
    · have htype : type ≠ .decimal := fun htype => hdecimal (htype ▸ hv)
      have hholds : type.Holds [] v := PropertyType.holds_of_scalarType? hv
      obtain ⟨shown, hshown, hcoerce, -⟩ := coerce_render hs (PropertyType.mem_lossless hv htype)
        hholds hfull identifier property
      exact ⟨shown, hshown, hcoerce⟩

/-- A leap second long before the calendar was made. -/
def earlyLeapSecond : PropertyValue :=
  .dateTime ⟨⟨-262143, 1, 1, by decide⟩, ⟨12, 30, 60, 0, by decide⟩⟩

theorem earlyLeapSecond_returns : earlyLeapSecond.scalarType? ≠ some .decimal ∧
    ∃ shown, render? {} (fun _ => "") earlyLeapSecond = some shown ∧
      coerce {} "created" .dateTime shown = .ok earlyLeapSecond :=
  ⟨by decide, (returns_iff (fun _ => "") "created" .dateTime earlyLeapSecond (by decide)).mpr
    (.inr ⟨rfl, rfl⟩)⟩

end Fieldwise
