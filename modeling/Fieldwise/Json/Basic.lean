import Fieldwise.Number.Shortest
import Fieldwise.Table
import Fieldwise.Text.Numeral

/-!
JSON values. The fields of an object keep their order. Numbers are integers or finite
floating-point numbers, and the two are different data even where they are equal.
-/

namespace Fieldwise

inductive Json.Number
  | integer (i : Int)
  | float (x : Binary64)
deriving DecidableEq

inductive Json
  | null
  | boolean (b : Bool)
  | number (n : Json.Number)
  | text (s : String)
  | array (items : List Json)
  | object (fields : List (String × Json))

/-- The fields of an object: an ordered table from names to values. -/
abbrev Record := Table String Json

namespace Json

def Number.text : Number → String
  | .integer i => String.ofList (Text.integerNumeral i)
  | .float x => x.documentText

def Number.toInt? : Number → Option Int
  | .integer i => some i
  | .float x => x.toInt?

def ofInt (i : Int) : Json := .number (.integer i)

def ofNat (n : Nat) : Json := ofInt n

def isNull : Json → Bool
  | null => true
  | _ => false

def text? : Json → Option String
  | text s => some s
  | _ => none

/-- What kind of value this is, in words. -/
def label : Json → String
  | null => "null"
  | boolean _ => "boolean"
  | number _ => "number"
  | text _ => "string"
  | array _ => "array"
  | object _ => "object"

/-- A value as an error message shows it: in full, unless it has parts. -/
def describe : Json → String
  | null => "null"
  | boolean b => s!"boolean {b}"
  | number n => s!"number {n.text}"
  | text s => s!"string \"{s}\""
  | array _ => "array"
  | object _ => "object"

end Json

end Fieldwise
