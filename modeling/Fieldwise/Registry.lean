import Fieldwise.EntityType
import Fieldwise.Text.Basic

/-!
The registered types, by name and by table, and access to properties through them. A path of
properties leads from object to object; where one of them is null, the path leads nowhere.
-/

namespace Fieldwise

structure Registry where
  types : Table String EntityType
  /-- The name of the type of each table. -/
  tables : Table String String

namespace Registry

def empty : Registry := ⟨[], []⟩

def register (r : Registry) (t : EntityType) : Except Error Registry :=
  if r.types.has t.name then .error (.duplicateType t.name)
  else if r.tables.has t.table then .error (.duplicateType s!"table {t.table}")
  else .ok ⟨r.types.put t.name t, r.tables.put t.table t.name⟩

def ofTypes (types : List EntityType) : Except Error Registry := types.foldlM register empty

def type? (r : Registry) (name : String) : Option EntityType := r.types.get? name

def typeName? (r : Registry) (table : String) : Option String := r.tables.get? table

def typeOfTable? (r : Registry) (table : String) : Option EntityType := do
  r.type? (← r.typeName? table)

def isAuditable (r : Registry) (typeName : String) : Bool := (r.type? typeName).any (·.auditable)

def hasProperty (r : Registry) (typeName property : String) : Bool :=
  (r.type? typeName).any (·.has property)

def size (r : Registry) : Nat := r.types.length

def accessor (r : Registry) (typeName property : String) : Except Error Accessor :=
  match r.type? typeName with
  | none => .error (.propertyAccess typeName property "type is not registered")
  | some t =>
    match t.accessor? property with
    | none => .error (.propertyAccess typeName property "unknown property")
    | some a => .ok a

def getProperty (r : Registry) (heap : Heap) (h : Handle) (property : String) :
    Except Error PropertyValue := do
  let o := heap.get h
  (← r.accessor o.typeName property).get o

def setProperty (r : Registry) (heap : Heap) (h : Handle) (property : String)
    (v : PropertyValue) : Except Error Heap := do
  let o := heap.get h
  pure (heap.put h (← (← r.accessor o.typeName property).set v o))

/-- Reads along the names of properties. -/
def follow (r : Registry) (heap : Heap) (h : Handle) : List String → Except Error PropertyValue
  | [] => .ok .null
  | [property] => r.getProperty heap h property
  | property :: rest => do
    match ← r.getProperty heap h property with
    | .reference next => r.follow heap next rest
    | .null => .ok .null
    | other =>
      .error (.propertyAccess (heap.get h).typeName property
        s!"cannot traverse into a {other.label} value")

def getPath (r : Registry) (heap : Heap) (h : Handle) (path : String) :
    Except Error PropertyValue :=
  r.follow heap h (Text.pieces '.' path)

/-- Writes the property at the end of a path. Below null there is nothing to write; null itself
may be written there, and then nothing happens. -/
def setPath (r : Registry) (heap : Heap) (h : Handle) (path : String) (v : PropertyValue) :
    Except Error Heap :=
  match Text.splitAtLast? '.' path with
  | none => r.setProperty heap h path v
  | some (way, property) => do
    match ← r.getPath heap h way with
    | .reference target => r.setProperty heap target property v
    | .null =>
      if v.isNull then .ok heap
      else .error (.propertyAccess (heap.get h).typeName path s!"'{way}' is null")
    | other =>
      .error (.propertyAccess (heap.get h).typeName path s!"'{way}' is a {other.label} value")

/-- The declared type at the end of the names of properties. -/
def declaredAlong (r : Registry) (typeName : String) : List String → Except Error PropertyType
  | [] => .error (.propertyAccess typeName "" "empty property path")
  | [property] => do pure (← r.accessor typeName property).type
  | property :: rest => do
    match (← r.accessor typeName property).type with
    | .reference target => r.declaredAlong target rest
    | other =>
      .error (.propertyAccess typeName property
        s!"cannot traverse into a {other.description} property")

def declaredType (r : Registry) (typeName path : String) : Except Error PropertyType :=
  r.declaredAlong typeName (Text.pieces '.' path)

end Registry

end Fieldwise
