import Fieldwise.Json.Fields
import Fieldwise.PropertyType

/-!
Property types in JSON: an object with the name of the kind and, for relations, the target as its
parameter. Without member names the two stand in an array.
-/

namespace Fieldwise.PropertyType

def kindName : PropertyType → String
  | text => "Text"
  | integer => "Integer"
  | decimal => "Decimal"
  | boolean => "Boolean"
  | date => "Date"
  | dateTime => "DateTime"
  | json => "Json"
  | reference _ => "Reference"
  | collection _ => "Collection"

def target? : PropertyType → Option String
  | reference target | collection target => some target
  | _ => none

def toJson (type : PropertyType) : Json :=
  let kind := ("kind", Json.text type.kindName)
  match type.target? with
  | none => .object [kind]
  | some target => .object [kind, ("params", .text target)]

/-- The type of a kind; only a relation has a parameter. -/
def ofParts? (kind : String) (params : Option Json.Node) : Option PropertyType :=
  match kind with
  | "Reference" => do pure (reference (← (← params).text?))
  | "Collection" => do pure (collection (← (← params).text?))
  | _ =>
    match params with
    | none | some .null =>
      [text, integer, decimal, boolean, date, dateTime, json].find? (·.kindName == kind)
    | _ => none

/-- The kind that a member gives: as a text, or as the only name in an object, with null. -/
def kindOfMember? : Json.Node → Option String
  | .object [(name, .null)] => Json.textOf? name
  | node => node.text?

def ofNode? : Json.Node → Option PropertyType
  | .array [kind, params] => do ofParts? (← kind.text?) (some params)
  | .array _ => none
  | node => do
    match ← node.fields? ["kind", "params"] with
    | [some kind, params] => ofParts? (← kindOfMember? kind) params
    | _ => none

end Fieldwise.PropertyType
