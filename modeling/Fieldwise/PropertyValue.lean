import Fieldwise.Calendar.DateTime
import Fieldwise.Json.Basic
import Fieldwise.Number.Decimal

/-!
Values of properties. Related business objects are values too: they stand for themselves by their
place in a heap, so that what they refer to may lead back to them.
-/

namespace Fieldwise

/-- The place of a business object in a heap. -/
abbrev Handle := Nat

deriving instance BEq for Json.Number, Json

inductive PropertyValue
  | null
  | boolean (b : Bool)
  | integer (i : Int64)
  | decimal (d : Decimal)
  | text (s : String)
  | date (d : Calendar.Date)
  | dateTime (t : Calendar.DateTime)
  | json (v : Json)
  | reference (h : Handle)
  | list (items : List PropertyValue)
deriving BEq

namespace PropertyValue

def isNull : PropertyValue → Bool
  | null => true
  | _ => false

def label : PropertyValue → String
  | null => "null"
  | boolean _ => "boolean"
  | integer _ => "integer"
  | decimal _ => "decimal"
  | text _ => "text"
  | date _ => "date"
  | dateTime _ => "datetime"
  | json _ => "json"
  | reference _ => "reference"
  | list _ => "list"

def text? : PropertyValue → Option String
  | text s => some s
  | _ => none

def integer? : PropertyValue → Option Int64
  | integer i => some i
  | _ => none

/-- An integer counts as a decimal. -/
def decimal? : PropertyValue → Option Decimal
  | decimal d => some d
  | integer i => some (.ofInt64 i)
  | _ => none

def boolean? : PropertyValue → Option Bool
  | boolean b => some b
  | _ => none

/-- A point in time has a date. -/
def date? : PropertyValue → Option Calendar.Date
  | date d => some d
  | dateTime t => some t.date
  | _ => none

def dateTime? : PropertyValue → Option Calendar.DateTime
  | dateTime t => some t
  | _ => none

def json? : PropertyValue → Option Json
  | json v => some v
  | _ => none

def reference? : PropertyValue → Option Handle
  | reference h => some h
  | _ => none

def list? : PropertyValue → Option (List PropertyValue)
  | list items => some items
  | _ => none

/-- All objects that a value refers to, on its own or as a list. -/
def references : PropertyValue → List Handle
  | reference h => [h]
  | list items => items.filterMap reference?
  | _ => []

end PropertyValue

end Fieldwise
