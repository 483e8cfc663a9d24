import Fieldwise.Conversion.Reading
import Fieldwise.Conversion.Writing

/-!
The service: entities of projections are got, created and updated by name and id. Ids may be
external ones everywhere.
-/

namespace Fieldwise

/-- What is known of an object that was asked for. -/
structure Lookup where
  entity : Entity
  typeName : String
  /-- The internal id. -/
  id : String
  /-- The object, if there is one. -/
  found : Option Handle

namespace Engine

/-- The entity of a projection, if the service answers for it. -/
def exposed (e : Engine) (projection name : String) : Except Error Entity := do
  let entity ← e.catalog.entityIn projection name
  if entity.endpoint then pure entity else throw (.endpointDisabled s!"{projection}.{name}")

def shown (e : Engine) (h : Handle) (entity : Entity) : Action Record := do
  match e.toRecord (← get) h entity with
  | .ok record => pure record
  | .error failure => throw failure

def translated (e : Engine) (entity : Entity) (record : Record) :
    Action (Record × Translation) := do
  let result := e.translate (← get) entity record
  match result.2.error? with
  | some error => Action.fail error
  | none => pure result

/-- Finds what the names and an id, external or not, stand for. -/
def lookUp (e : Engine) (projection name id : String) : Action Lookup := do
  let entity ← Action.lift (e.exposed projection name)
  let typeName ← e.typeOfTable entity.table
  let id ← e.internalId entity.table id
  let found ← Action.observe (e.persistence.load typeName id)
  pure { entity, typeName, id, found }

def getRecord (e : Engine) (projection name id : String) : Action (Option Record) := do
  let asked ← e.lookUp projection name id
  match asked.found with
  | some h => some <$> e.shown h asked.entity
  | none => pure none

/-- An external id that is not known yet is bound to the new object; the object itself then gets
its id from persistence. -/
def createRecord (e : Engine) (projection name : String) (record : Record) : Action Record := do
  let entity ← Action.lift (e.exposed projection name)
  let (record, t) ← e.translated entity record
  let record := if t.deferrals.isEmpty then record else record.remove "id"
  let h ← e.writeRecord record none entity entity.fields
  (e.persistence.save h).within s!"saving new {projection}.{name}"
  let _ ← e.bindDeferrals t h
  e.shown h entity

/-- The id in the address counts, and not one in the record. -/
def updateRecord (e : Engine) (projection name id : String) (record : Record) : Action Record := do
  let asked ← e.lookUp projection name id
  let some h := asked.found
    | Action.fail (.entityNotFound asked.typeName asked.id)
  let (record, _) ← e.translated asked.entity (record.remove "id")
  let h ← e.writeRecord record (some h) asked.entity asked.entity.fields
  (e.persistence.save h).within s!"saving {projection}.{name} {asked.id}"
  e.shown h asked.entity

end Engine

end Fieldwise
