import Fieldwise.Calendar.Pattern.Writer
import Fieldwise.Number.DecimalFloat
import Fieldwise.Number.DecimalText
import Fieldwise.PropertyValue
import Fieldwise.Settings

/-!
From values of properties to JSON. Dates and points in time are written by the formats of the
settings, a decimal as a number if that keeps its value, and a related object by its identifier.
-/

namespace Fieldwise

def Decimal.toJson (d : Decimal) : Json :=
  match d.exactFloat? with
  | some x => .number (.float x)
  | none => .text d.text

mutual

/-- There is no result if a format cannot be applied. -/
def render? (settings : Settings) (identifier : Handle → String) : PropertyValue → Option Json
  | .null => some .null
  | .boolean b => some (.boolean b)
  | .integer i => some (.ofInt i.toInt)
  | .decimal d => some d.toJson
  | .text s => some (.text s)
  | .date d => ((Calendar.Pattern.ofString settings.dateFormat).writeDate? d).map .text
  | .dateTime t =>
    ((Calendar.Pattern.ofString settings.dateTimeFormat).writeDateTime? t).map .text
  | .json v => some v
  | .reference h => some (.text (identifier h))
  | .list items => (renderAll? settings identifier items).map .array

def renderAll? (settings : Settings) (identifier : Handle → String) :
    List PropertyValue → Option (List Json)
  | [] => some []
  | v :: rest => do
    let shown ← render? settings identifier v
    pure (shown :: (← renderAll? settings identifier rest))

end

end Fieldwise
