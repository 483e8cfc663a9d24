import Fieldwise.Conversion.Rendering

/-!
What the formats of the settings can be applied to. That a pattern has a text for a date is a
matter of its pieces, whatever the date; so which values can be shown is a matter of the two
patterns and of where dates and points in time are in a value.
-/

namespace Fieldwise

namespace Calendar.Pattern

/-- A number of a time of day, and not of a date. -/
def Quantity.isTimed : Quantity → Bool
  | hour | hourOfHalf | minute | second | nano | timestamp => true
  | _ => false

/-- A piece has a text for dates, or only for points in time; zones have none at all. -/
def Piece.isWritable (timed : Bool) : Piece → Bool
  | number quantity _ => timed || !quantity.isTimed
  | halfOfDay _ | fraction | pointAndDigits _ | digits _ => timed
  | zoneName | offset _ | timestampMark | timestampZone | unknown => false
  | literal _ | blank _ | shortMonthName | monthName | shortDayName | dayName => true

/-- A pattern can be applied to dates, or to points in time. -/
def isWritable (timed : Bool) (p : Pattern) : Bool := p.all (·.isWritable timed)

theorem Quantity.isSome_value? (d : Date) (clock : Option Clock) (quantity : Quantity) :
    (quantity.value? d clock).isSome = (clock.isSome || !quantity.isTimed) := by
  cases quantity <;> cases clock <;> rfl

theorem Piece.isSome_write? (d : Date) (clock : Option Clock) (piece : Piece) :
    (piece.write? d clock).isSome = piece.isWritable clock.isSome := by
  cases piece with
  | number quantity padding =>
    rw [write?, Option.isSome_map, quantity.isSome_value?]
    rfl
  | _ => cases clock <;> rfl

theorem isSome_write? (p : Pattern) (d : Date) (clock : Option Clock) :
    (p.write? d clock).isSome = p.isWritable clock.isSome := by
  have hparts : (p.mapM (Piece.write? d clock)).isSome = p.isWritable clock.isSome := by
    induction p with
    | nil => rfl
    | cons piece rest ih =>
      rw [isWritable, List.all_cons, ← isWritable, ← ih, ← Piece.isSome_write? d clock,
        List.mapM_cons]
      cases piece.write? d clock <;> cases rest.mapM (Piece.write? d clock) <;> rfl
  rw [write?, Option.isSome_map, hparts]

end Calendar.Pattern

namespace Settings

open Calendar

mutual

/-- The formats can be applied to all dates and points in time in a value. -/
def covers (s : Settings) : PropertyValue → Bool
  | .date _ => (Pattern.ofString s.dateFormat).isWritable false
  | .dateTime _ => (Pattern.ofString s.dateTimeFormat).isWritable true
  | .list items => s.coversAll items
  | _ => true

def coversAll (s : Settings) : List PropertyValue → Bool
  | [] => true
  | v :: rest => s.covers v && s.coversAll rest

end

variable {s : Settings}

mutual

theorem isSome_render? (identifier : Handle → String) (v : PropertyValue) :
    (render? s identifier v).isSome = s.covers v := by
  cases v with
  | date d => simp [render?, covers, Pattern.writeDate?, Pattern.isSome_write?]
  | dateTime t => simp [render?, covers, Pattern.writeDateTime?, Pattern.isSome_write?]
  | list items => simpa [render?, covers] using isSome_renderAll? identifier items
  | _ => rfl

theorem isSome_renderAll? (identifier : Handle → String) (items : List PropertyValue) :
    (renderAll? s identifier items).isSome = s.coversAll items := by
  match items with
  | [] => rfl
  | v :: rest =>
    rw [coversAll, ← isSome_render? identifier v, ← isSome_renderAll? identifier rest, renderAll?]
    cases render? s identifier v <;> cases renderAll? s identifier rest <;> rfl

end

theorem render?_eq_none_iff (identifier : Handle → String) (v : PropertyValue) :
    render? s identifier v = none ↔ s.covers v = false := by
  rw [← isSome_render? identifier v, Option.isSome_eq_false_iff, Option.isNone_iff_eq_none]

mutual

theorem covers_of_isWritable (hdate : (Pattern.ofString s.dateFormat).isWritable false = true)
    (hdateTime : (Pattern.ofString s.dateTimeFormat).isWritable true = true)
    (v : PropertyValue) : s.covers v = true := by
  cases v with
  | date d => exact hdate
  | dateTime t => exact hdateTime
  | list items => exact coversAll_of_isWritable hdate hdateTime items
  | _ => rfl

theorem coversAll_of_isWritable (hdate : (Pattern.ofString s.dateFormat).isWritable false = true)
    (hdateTime : (Pattern.ofString s.dateTimeFormat).isWritable true = true)
    (items : List PropertyValue) : s.coversAll items = true := by
  match items with
  | [] => rfl
  | v :: rest =>
    rw [coversAll, covers_of_isWritable hdate hdateTime v,
      coversAll_of_isWritable hdate hdateTime rest, Bool.and_self]

end

theorem covers_all_iff : (∀ v, s.covers v = true) ↔
    (Pattern.ofString s.dateFormat).isWritable false = true ∧
      (Pattern.ofString s.dateTimeFormat).isWritable true = true := by
  let day : Date := ⟨1970, 1, 1, by decide⟩
  refine ⟨fun h => ⟨h (.date day), h (.dateTime (.atMidnight day))⟩, ?_⟩
  rintro ⟨hdate, hdateTime⟩ v
  exact covers_of_isWritable hdate hdateTime v

end Settings

end Fieldwise
