import Fieldwise.Error
import Fieldwise.Json.Path
import Fieldwise.Mapping
import Fieldwise.Text.Basic

/-!
A field of a record: its name there, the property of the business object behind it and the way in
which the one is made from the other.
-/

namespace Fieldwise

structure Field where
  name : String
  /-- Names of properties, separated by points. -/
  property : String
  kind : MappingKind
  mandatory : Bool := false
  constantId : Option String := none
  path : Option String := none
  qualifier : Option String := none
  /-- The id of the entity that a reference leads to. -/
  relatedId : Option String := none
  description : Option String := none
deriving DecidableEq

def Json.Path.parse (expression : String) : Except Error Json.Path :=
  (Json.Path.ofText expression).mapError fun fault => .pathExtraction expression fault.message

namespace Field

/-- A field that has the name of its property. -/
def ofKind (name : String) (kind : MappingKind) : Field := { name, property := name, kind }

def direct (name property : String) : Field := { name, property, kind := .direct }

def constant (name id : String) : Field := { ofKind name .constant with constantId := some id }

def computedConstant (name id : String) : Field :=
  { ofKind name .computedConstant with constantId := some id }

def reference (name property related : String) : Field :=
  { name, property, kind := .reference, relatedId := some related }

def custom (name qualifier : String) : Field :=
  { ofKind name .custom with qualifier := some qualifier }

def extraction (name property expression : String) : Field :=
  { name, property, kind := .path, path := some expression }

/-- The names of the properties on the way; empty ones are left out. -/
def segments (f : Field) : List String :=
  (Text.pieces '.' f.property).filter (· ≠ "")

/-- A record without a value for this field is refused. -/
def requiresValue (f : Field) : Bool := f.mandatory && !f.kind.isConstant

def isMissing (s : Option String) : Bool := s.all Text.isBlank

/-- What the kind of the field needs and the field does not have. -/
def problem? (f : Field) : Option String :=
  match f.kind with
  | .direct => if Text.isBlank f.property then some "Direct field has no property path" else none
  | .constant | .computedConstant =>
    if isMissing f.constantId then some s!"{f.kind.name} field has no constant id" else none
  | .reference =>
    if isMissing f.relatedId then some "EntityReference field has no related entity id"
    else if Text.isBlank f.property then some "EntityReference field has no property path"
    else none
  | .custom => if isMissing f.qualifier then some "CustomMapping field has no qualifier" else none
  | .path =>
    match f.path with
    | none => some "PathExtraction field has no path expression"
    | some expression =>
      match Json.Path.parse expression with
      | .ok _ => none
      | .error e => some e.message
  | .unknown written => some s!"Unknown mapping kind '{written}'"

def orMark (s : Option String) : String := s.getD "?"

/-- In one line, where the values of the field come from. -/
def describe (f : Field) : String :=
  match f.kind with
  | .direct => f.property
  | .constant | .computedConstant => s!"constant {orMark f.constantId}"
  | .reference => s!"{f.property} -> {orMark f.relatedId}"
  | .custom => s!"qualifier {orMark f.qualifier}"
  | .path => s!"{f.property} {orMark f.path}"
  | .unknown written => s!"unsupported kind '{written}'"

end Field

end Fieldwise
