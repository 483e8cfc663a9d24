import Fieldwise.Calendar.Iso
import Fieldwise.Calendar.Pattern.Reader
import Fieldwise.Number.DecimalText
import Fieldwise.PropertyType
import Fieldwise.PropertyValue
import Fieldwise.Settings

/-!
From JSON to values of a declared type. Whatever can be taken for a value of the type is accepted,
and null for every type; nothing can be taken for a related object.
-/

namespace Fieldwise.Coercion

open Calendar

def int64? (i : Int) : Option Int64 :=
  if -2 ^ 63 ≤ i ∧ i < 2 ^ 63 then some (Int64.ofInt i) else none

def toText? : Json → Option String
  | .text s => some s
  | .number n => some n.text
  | .boolean b => some (if b then "true" else "false")
  | _ => none

/-- An integer, also one that is written as a decimal without a fraction. -/
def integerOfText? (s : String) : Option Int64 :=
  let written := (Text.integerOf? s.toList).bind int64?
  written <|> (do int64? (← (← Decimal.ofText? s).toInt?))

def toInteger? : Json → Option Int64
  | .number n => n.toInt?.bind int64?
  | .text s => integerOfText? (Text.trim s)
  | _ => none

def toDecimal? : Json → Option Decimal
  | .number (.integer i) =>
    match int64? i with
    | some i => some (.ofInt64 i)
    | none => Decimal.ofText? (Json.Number.integer i).text
  | .number n => Decimal.ofText? n.text
  | .text s => Decimal.ofText? (Text.trim s)
  | _ => none

def toBoolean? : Json → Option Bool
  | .boolean b => some b
  | .text s =>
    match Text.lowerAscii (Text.trim s) with
    | "true" | "y" => some true
    | "false" | "n" => some false
    | _ => none
  | .number (.integer 0) => some false
  | .number (.integer 1) => some true
  | _ => none

/-- By the format for points in time, as a timestamp, or as a date at midnight. -/
def dateTimeOfText? (settings : Settings) (s : String) : Option DateTime :=
  (Pattern.ofString settings.dateTimeFormat).readDateTime? s <|>
  Timestamp.ofText? s <|>
  ((Pattern.ofString settings.dateFormat).readDate? s).map DateTime.atMidnight

/-- By the format for dates, or as the date of a point in time. -/
def dateOfText? (settings : Settings) (s : String) : Option Date :=
  (Pattern.ofString settings.dateFormat).readDate? s <|>
  (dateTimeOfText? settings s).map (·.date)

def value? (settings : Settings) (v : Json) : PropertyType → Option PropertyValue
  | .text => (toText? v).map .text
  | .integer => (toInteger? v).map .integer
  | .decimal => (toDecimal? v).map .decimal
  | .boolean => (toBoolean? v).map .boolean
  | .date => do pure (.date (← dateOfText? settings (Text.trim (← v.text?))))
  | .dateTime => do pure (.dateTime (← dateTimeOfText? settings (Text.trim (← v.text?))))
  | .json => some (.json v)
  | .reference _ | .collection _ => none

end Fieldwise.Coercion

namespace Fieldwise

/-- The value for a property of the given type. -/
def coerce (settings : Settings) (property : String) (type : PropertyType) (v : Json) :
    Except Error PropertyValue :=
  if v.isNull then .ok .null
  else
    match Coercion.value? settings v type with
    | some value => .ok value
    | none => .error (.typeMismatch property type.description v.describe)

end Fieldwise
