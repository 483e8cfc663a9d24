import Fieldwise.Catalog.Field
import Fieldwise.Text.Basic

/-!
An entity of a projection: which fields the records of one type of business object have. A
projection is a named set of entities, as one audience sees them.
-/

namespace Fieldwise

structure Entity where
  id : String
  name : String
  /-- The table of the business objects, which tells their type. -/
  table : String
  /-- A second name by which the entity can be asked for. -/
  externalName : Option String := none
  /-- Whether the service answers for this entity. -/
  endpoint : Bool := true
  fields : List Field := []
  description : Option String := none
deriving DecidableEq

namespace Entity

def field? (e : Entity) (name : String) : Option Field := e.fields.find? (·.name == name)

def nameMatches (e : Entity) (name : String) : Bool := Text.sameIgnoringAsciiCase e.name name

/-- Either of the names, in any letter case. -/
def answersTo (e : Entity) (name : String) : Bool :=
  e.nameMatches name || e.externalName.any (Text.sameIgnoringAsciiCase · name)

def outsideName (e : Entity) : String := e.externalName.getD e.name

def mandatoryFields (e : Entity) : List Field := e.fields.filter (·.requiresValue)

def referenceFields (e : Entity) : List Field := e.fields.filter (·.kind == .reference)

/-- The checks of one field of the entity that is named `entity`, after fields named `earlier`. -/
def checkField (entity : String) (earlier : List String) (f : Field) : Except Error Unit :=
  if Text.isBlank f.name then
    .error (.fieldValidation entity "" "Field name cannot be empty")
  else if f.name ∈ earlier then
    .error (.fieldValidation entity f.name "Duplicate field name")
  else
    match f.kind with
    | .unknown written => .error (.unsupportedFieldKind s!"{entity}.{f.name}" written)
    | _ =>
      match f.problem? with
      | some problem => .error (.fieldValidation entity f.name problem)
      | none => .ok ()

def checkFields (entity : String) (earlier : List String) : List Field → Except Error Unit
  | [] => .ok ()
  | f :: rest => do
    checkField entity earlier f
    checkFields entity (f.name :: earlier) rest

/-- The first thing that is wrong with an entity on its own. -/
def check (e : Entity) : Except Error Unit :=
  if Text.isBlank e.id then .error (.entityValidation e.name "Entity id cannot be empty")
  else if Text.isBlank e.name then .error (.entityValidation e.id "Entity name cannot be empty")
  else if Text.isBlank e.table then .error (.entityValidation e.name "Table id cannot be empty")
  else checkFields e.name [] e.fields

end Entity

structure Projection where
  id : String
  name : String
  description : Option String := none
  entities : List Entity := []
deriving DecidableEq

namespace Projection

def entity? (p : Projection) (name : String) : Option Entity := p.entities.find? (·.answersTo name)

def check (p : Projection) : Except Error Unit :=
  if Text.isBlank p.name then .error (.validation s!"Projection '{p.id}' has an empty name")
  else p.entities.forM Entity.check

end Projection

end Fieldwise
