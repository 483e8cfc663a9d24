import Fieldwise.EntityType

/-!
Types whose objects keep the values of their properties in cells. A property that has never been
set has a default. Setting stores the value as the type of the property sees it, and nothing if the
type cannot see it.
-/

namespace Fieldwise

structure PropertyDefinition where
  name : String
  type : PropertyType
  /-- Texts are empty and booleans false where others are null. -/
  neverNull : Bool := false
  readOnly : Bool := false
deriving DecidableEq

structure TypeDefinition where
  name : String
  table : String
  auditable : Bool := false
  idProperty : Option String := none
  identifierProperty : Option String := none
  properties : List PropertyDefinition
deriving DecidableEq

namespace PropertyDefinition

/-- The value where no other is known. -/
def absent (p : PropertyDefinition) : PropertyValue :=
  match p.type, p.neverNull with
  | .text, true => .text ""
  | .boolean, true => .boolean false
  | _, _ => .null

/-- The value as long as nothing has been set. -/
def initial (p : PropertyDefinition) : PropertyValue :=
  match p.type with
  | .collection _ => .list []
  | _ => p.absent

/-- A value as the type of the property sees it. -/
def view? (p : PropertyDefinition) (v : PropertyValue) : Option PropertyValue :=
  match p.type with
  | .text => v.text?.map .text
  | .integer => v.integer?.map .integer
  | .decimal => v.decimal?.map .decimal
  | .boolean => v.boolean?.map .boolean
  | .date => v.date?.map .date
  | .dateTime => v.dateTime?.map .dateTime
  | .json => v.json?.map .json
  | .reference _ => v.reference?.map .reference
  | .collection _ => some (.list (v.references.map .reference))

def get (p : PropertyDefinition) (o : BusinessObject) : PropertyValue :=
  (o.cells.get? p.name).getD p.initial

def set (p : PropertyDefinition) (v : PropertyValue) (o : BusinessObject) : BusinessObject :=
  { o with cells := o.cells.put p.name ((p.view? v).getD p.absent) }

/-- Access to objects of the make `make`, the only ones that are known to have the property. -/
def accessor (p : PropertyDefinition) (make : String) : Accessor where
  name := p.name
  type := p.type
  get o := if o.kind.make = make then .ok (p.get o) else .error foreign
  set? :=
    if p.readOnly then none
    else some fun v o => if o.kind.make = make then .ok (p.set v o) else .error foreign
where
  foreign : Error := .propertyAccess make p.name
    "business object is not of the registered concrete type"

end PropertyDefinition

namespace TypeDefinition

def storedId? (d : TypeDefinition) (cells : Cells) : Option String := do
  (← cells.get? (← d.idProperty)).text?

def storeId (d : TypeDefinition) (id : String) (cells : Cells) : Cells :=
  match d.idProperty with
  | none => cells
  | some p => cells.put p (.text id)

def identifierOf (d : TypeDefinition) (cells : Cells) : String :=
  match d.identifierProperty with
  | none => (d.storedId? cells).getD ""
  | some p => ((cells.get? p).bind PropertyValue.text?).getD ""

def kind (d : TypeDefinition) : ObjectKind where
  make := d.name
  typeName := d.name
  id? := d.storedId?
  setId := d.storeId
  identifier := d.identifierOf

/-- Later properties take the place of earlier ones of the same name. -/
def entityType (d : TypeDefinition) : EntityType where
  name := d.name
  table := d.table
  auditable := d.auditable
  create := ⟨d.kind, []⟩
  accessors := Table.ofList (d.properties.map fun p => (p.name, p.accessor d.name))

end TypeDefinition

end Fieldwise
