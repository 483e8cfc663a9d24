import Fieldwise.Error
import Fieldwise.Text.Basic

/-!
Declared types of the properties of business objects.
-/

namespace Fieldwise

inductive PropertyType
  | text
  | integer
  | decimal
  | boolean
  | date
  | dateTime
  | json
  | reference (target : String)
  | collection (target : String)
deriving DecidableEq

namespace PropertyType

def isRelation : PropertyType → Bool
  | reference _ | collection _ => true
  | _ => false

def isTemporal : PropertyType → Bool
  | date | dateTime => true
  | _ => false

def description : PropertyType → String
  | text => "text"
  | integer => "integer"
  | decimal => "decimal"
  | boolean => "boolean"
  | date => "date"
  | dateTime => "datetime"
  | json => "json"
  | reference target => s!"reference<{target}>"
  | collection target => s!"collection<{target}>"

/-- The spellings by which types without a target are asked for. -/
def spellings : List (String × PropertyType) :=
  [("text", text), ("string", text), ("integer", integer), ("int", integer), ("long", integer),
   ("decimal", decimal), ("number", decimal), ("amount", decimal), ("boolean", boolean),
   ("bool", boolean), ("date", date), ("datetime", dateTime), ("timestamp", dateTime),
   ("json", json)]

/-- Letter case and white space around the spelling do not count. -/
def ofText (s : String) : Except Error PropertyType :=
  match spellings.lookup (Text.lowerAscii (Text.trim s)) with
  | some type => .ok type
  | none => .error (.invalidConfig s!"Unknown property type '{s}'")

/-- The target of a relation, if the words open as given and end as they should. -/
def targetIn? (opening words : List Char) : Option String :=
  if opening.isPrefixOf words && words.getLast? == some '>' then
    some (String.ofList (words.drop opening.length).dropLast)
  else none

/-- Reads a description; a type without a target may be spelled in other ways too. -/
def ofDescription (s : String) : Except Error PropertyType :=
  match targetIn? "reference<".toList s.toList, targetIn? "collection<".toList s.toList with
  | some target, _ => .ok (.reference target)
  | none, some target => .ok (.collection target)
  | none, none => ofText s

end PropertyType

end Fieldwise
