import Fieldwise.Catalog
import Fieldwise.Catalog.Report

/-!
The rules for catalogs. Each rule looks at the whole catalog for one kind of fault; a catalog is
examined by all of them in turn.
-/

namespace Fieldwise

structure Rule where
  name : String
  description : String
  examine : Catalog → Report

namespace Rule

def findProjection (p : Projection) : Report :=
  .onlyIf (Text.isBlank p.name)
    (.ofProblem ⟨.emptyProjectionName, "Projection name cannot be empty",
      some s!"projections.{p.id}", none⟩) ++
  .onlyIf p.entities.isEmpty
    (.ofWarning ⟨.emptyProjection, s!"Projection '{p.name}' exposes no entities", some p.name⟩)

def projections : Rule where
  name := "projections"
  description := "Validates that projections are named and expose entities"
  examine c := .gather findProjection c.projections

/-- An entity of the projection named `projection`; `earlier` has the names of the entities before
it in lower case. -/
def findIdentity (projection : String) (earlier : List String) (e : Entity) : Report :=
  let path := some s!"{projection}.{e.name}"
  .onlyIf (Text.isBlank e.id)
    (.ofProblem ⟨.emptyEntityId, "Entity id cannot be empty", path, none⟩) ++
  if Text.isBlank e.name then
    .ofProblem ⟨.emptyEntityName, "Entity name cannot be empty",
      some s!"{projection}.{e.id}", none⟩
  else
    .onlyIf (Text.isBlank e.table)
      (.ofProblem ⟨.emptyTable, s!"Entity '{e.name}' has no table id", path, none⟩) ++
    .onlyIf (Text.lowercase e.name ∈ earlier)
      (.ofProblem ⟨.duplicateEntityName, s!"Duplicate entity name: '{e.name}'", path, none⟩) ++
    if e.fields.isEmpty then
      .ofWarning ⟨.noFields, s!"Entity '{e.name}' has no fields", path⟩
    else
      .onlyIf (e.field? "id").isNone
        (.ofWarning ⟨.missingIdField, s!"Entity '{e.name}' does not expose an 'id' field", path⟩)

def findIdentities (projection : String) (earlier : List String) : List Entity → Report
  | [] => .clean
  | e :: rest =>
    findIdentity projection earlier e ++
      findIdentities projection (Text.lowercase e.name :: earlier) rest

def identities : Rule where
  name := "entity_identity"
  description := "Validates entity ids, names and table ids"
  examine c := .gather (fun p => findIdentities p.name [] p.entities) c.projections

/-- A field of the entity `entity`, all by name; `earlier` has the names of the fields before. -/
def findField (projection entity : String) (earlier : List String) (f : Field) : Report :=
  let path := some s!"{projection}.{entity}.fields.{f.name}"
  if Text.isBlank f.name then
    .ofProblem ⟨.emptyFieldName, s!"Entity '{entity}' has a field without a name", path, none⟩
  else
    .onlyIf (f.name ∈ earlier)
      (.ofProblem ⟨.duplicateFieldName, s!"Duplicate field name: '{f.name}'", path, none⟩) ++
    match f.kind with
    | .unknown written =>
      .ofProblem ⟨.unknownKind, s!"Unknown mapping kind '{written}'", path, some written⟩
    | _ =>
      (match f.problem? with
        | some problem => .ofProblem ⟨.missingKindData, problem, path, none⟩
        | none => .clean) ++
      .onlyIf (f.mandatory && f.kind == .path)
        (.ofWarning ⟨.mandatoryReadOnlyField,
          s!"Field '{f.name}' is mandatory but PathExtraction fields are read-only", path⟩)

def findFields (projection entity : String) (earlier : List String) : List Field → Report
  | [] => .clean
  | f :: rest =>
    findField projection entity earlier f ++ findFields projection entity (f.name :: earlier) rest

def mappings : Rule where
  name := "field_mappings"
  description := "Validates field names, mapping kinds and kind-specific data"
  examine c :=
    .gather (fun p => .gather (fun e => findFields p.name e.name [] e.fields) p.entities)
      c.projections

def findTarget (c : Catalog) (projection entity : String) (f : Field) : Report :=
  match f.relatedId with
  | none => .clean
  | some target =>
    .onlyIf (c.entity? target).isNone
      (.ofProblem ⟨.unknownRelatedEntity, s!"Related entity '{target}' is not in the catalog",
        some s!"{projection}.{entity}.fields.{f.name}", some target⟩)

def targets : Rule where
  name := "reference_targets"
  description := "Validates that EntityReference fields target entity metadata in the catalog"
  examine c :=
    .gather (fun p =>
      .gather (fun e => .gather (findTarget c p.name e.name) e.referenceFields) p.entities)
      c.projections

def all : List Rule := [projections, identities, mappings, targets]

end Rule

def Catalog.examineBy (rules : List Rule) (c : Catalog) : Report :=
  .gather (fun rule => rule.examine c) rules

def Catalog.examine (c : Catalog) : Report := c.examineBy Rule.all

end Fieldwise
