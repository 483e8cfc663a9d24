import Fieldwise.Catalog.Validation
import Fieldwise.Memory
import Fieldwise.Settings

/-!
The engine: a catalog, the registered types, the settings and the collaborators. It is put together
from parts, of which only persistence has no default. It makes new business objects for the tables
of entities; the type of a table is asked for once and then remembered, and a question without an
answer is asked again the next time.
-/

namespace Fieldwise

structure Engine where
  catalog : Catalog
  /-- The path expressions of the catalog. -/
  paths : Table String Json.Path
  registry : Registry
  settings : Settings
  persistence : Persistence
  externalIds : ExternalIds
  constants : Constants
  tableTypes : TableTypes
  custom : CustomMappings
  audit? : Option Audit

structure EngineParts where
  catalog : Catalog
  registry : Registry
  settings : Settings := {}
  persistence : Option Persistence := none
  externalIds : Option ExternalIds := none
  constants : Option Constants := none
  tableTypes : Option TableTypes := none
  custom : CustomMappings := .none
  audit? : Option Audit := none

namespace Engine

def build (p : EngineParts) : Except Error Engine := do
  let some persistence := p.persistence
    | throw (.missingConfig "persistence collaborator")
  p.settings.check
  if p.settings.validateCatalog then p.catalog.examine.result
  pure {
    catalog := p.catalog
    paths := p.catalog.paths
    registry := p.registry
    settings := p.settings
    persistence
    externalIds := p.externalIds.getD .inMemory
    constants := p.constants.getD (.ofTable [])
    tableTypes := p.tableTypes.getD (.ofRegistry p.registry)
    custom := p.custom
    audit? := p.audit? }

/-- The entity that the records of a reference field belong to, if the catalog has it. -/
def related? (e : Engine) (f : Field) : Option Entity := do e.catalog.entity? (← f.relatedId)

def typeOfTable (e : Engine) (table : String) : Action String := do
  match (← get).tableTypes.get? table with
  | some name => pure name
  | none =>
    modify fun w => { w with lookups := w.lookups + 1 }
    let some name ← Action.lift (e.tableTypes table)
      | Action.fail (.instantiation table "no business type registered for table")
    modify fun w => { w with tableTypes := w.tableTypes.put table name }
    pure name

def instantiate (e : Engine) (entity : Entity) : Action Handle := do
  let name ← e.typeOfTable entity.table
  let some type := e.registry.type? name
    | Action.fail (.instantiation entity.table s!"type '{name}' has no constructor")
  Action.addObject type.create

end Engine

/-- How fields are read and written. -/
inductive Strategy
  | direct
  | constant
  | reference
  | custom
  | path
deriving DecidableEq

def MappingKind.strategy? : MappingKind → Option Strategy
  | direct => some .direct
  | constant | computedConstant => some .constant
  | reference => some .reference
  | custom => some .custom
  | path => some .path
  | unknown _ => none

end Fieldwise
