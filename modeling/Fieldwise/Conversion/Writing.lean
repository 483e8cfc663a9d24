import Fieldwise.Conversion.Coercion
import Fieldwise.Engine
import Fieldwise.ExternalId.Reference

/-!
From records to business objects. A record without a value for a mandatory field is refused before
anything is done. Then the fields are written in the order of the entity, as far as the record has
them; the first failure ends it and leaves what has been written.
-/

namespace Fieldwise.Engine

/-- The first field that must have a value and has none in the record. -/
def missingField? (fields : List Field) (record : Record) : Option Field :=
  (fields.filter (·.requiresValue)).find? fun f => (record.get? f.name).all Json.isNull

def writeDirect (e : Engine) (h : Handle) (f : Field) (v : Json) : Action Unit :=
  Action.changeHeap fun heap => do
    let type ← e.registry.declaredType (heap.get h).typeName f.property
    e.registry.setPath heap h f.property (← coerce e.settings f.property type v)

/-- The stored object that a value refers to, if it is there. -/
def resolve (e : Engine) (table typeName : String) (f : Field) (v : Json) :
    Action (Option Handle) := do
  let some id := v.referenceId?
    | Action.fail (.typeMismatch f.property "reference id" v.label)
  let id ← e.internalId table id
  Action.observe (e.persistence.load typeName id)

/-- The objects that the items of an array refer to; null and what is not there are left out. -/
def resolveAll (e : Engine) (table typeName : String) (f : Field) :
    List Json → Action (List Handle)
  | [] => pure []
  | v :: rest => do
    if v.isNull then e.resolveAll table typeName f rest
    else
      let found ← e.resolve table typeName f v
      pure (found.toList ++ (← e.resolveAll table typeName f rest))

/-- A single object that is not there leaves the property as it is. -/
def writeReference (e : Engine) (h : Handle) (f : Field) (v : Json) : Action Unit := do
  let assign (value : PropertyValue) : Action Unit :=
    Action.changeHeap fun heap => e.registry.setPath heap h f.property value
  if v.isNull then assign .null
  else
    let some related := e.related? f | pure ()
    let typeName ← e.typeOfTable related.table
    match v with
    | .array items =>
      let found ← e.resolveAll related.table typeName f items
      assign (.list (found.map .reference))
    | _ =>
      match ← e.resolve related.table typeName f v with
      | some found => assign (.reference found)
      | none => pure ()

/-- A custom writer is given the whole record, or the one entry if there is no more. -/
def writeCustom (e : Engine) (root? : Option Record) (h : Handle) (f : Field) (v : Json) :
    Action Unit :=
  match e.custom.writer? (f.qualifier.getD "") with
  | some write => write h (root?.getD [(f.name, v)]) f
  | none => pure ()

def writeBy (e : Engine) (root? : Option Record) (h : Handle) (f : Field) (v : Json) :
    Strategy → Action Unit
  | .direct => e.writeDirect h f v
  | .reference => e.writeReference h f v
  | .custom => e.writeCustom root? h f v
  | .constant | .path => pure ()

/-- Writes one field of a record, if the record has it and its kind is known. -/
def writeEntry (e : Engine) (record : Record) (h : Handle) (f : Field) : Action Unit :=
  match record.get? f.name, f.kind.strategy? with
  | some v, some strategy => e.writeBy (some record) h f v strategy
  | _, _ => pure ()

def auditWritten (e : Engine) (h : Handle) (isNew : Bool) : Action Unit := do
  match e.audit? with
  | some audit =>
    if e.registry.isAuditable ((← get).heap.get h).typeName then audit h isNew
  | none => pure ()

/-- The object that a record is to be written onto, a new one if none is given. A record without a
value for a mandatory field is written onto none. -/
def target (e : Engine) (record : Record) (existing : Option Handle) (entity : Entity)
    (fields : List Field) : Action Handle :=
  match missingField? fields record, existing with
  | some f, _ => Action.fail (.missingMandatoryField entity.name f.name)
  | none, some h => pure h
  | none, none => e.instantiate entity

def writeOnto (e : Engine) (record : Record) (h : Handle) (isNew : Bool) (fields : List Field) :
    Action Unit := do
  fields.forM (e.writeEntry record h)
  e.auditWritten h isNew

def writeRecord (e : Engine) (record : Record) (existing : Option Handle) (entity : Entity)
    (fields : List Field) : Action Handle := do
  let h ← e.target record existing entity fields
  e.writeOnto record h existing.isNone fields
  pure h

end Fieldwise.Engine
