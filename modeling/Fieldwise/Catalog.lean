import Fieldwise.Catalog.Entity
import Fieldwise.Table
import Fieldwise.Text.LetterCase

/-!
A catalog: projections, with an index of their names, in lower case, and an index of the ids of
all entities. No two projections have one name and no two entities one id.
-/

namespace Fieldwise

/-- Where each projection and each entity stands. -/
structure Catalog.Index where
  projections : Table String Nat
  /-- The place of the projection, and the place of the entity in it. -/
  entities : Table String (Nat × Nat)

structure Catalog where
  projections : List Projection
  index : Catalog.Index

namespace Catalog

namespace Index

/-- Enters the entities of the projection at place `p`, the first of which stands at place `e`. -/
def addEntities (p e : Nat) (index : Index) : List Entity → Except Error Index
  | [] => .ok index
  | entity :: rest =>
    if index.entities.has entity.id then .error (.duplicateEntity entity.id)
    else
      addEntities p (e + 1) { index with entities := index.entities.put entity.id (p, e) } rest

def addProjections (p : Nat) (index : Index) : List Projection → Except Error Index
  | [] => .ok index
  | projection :: rest => do
    let name := Text.lowercase projection.name
    if index.projections.has name then throw (.duplicateProjection projection.name)
    let index := { index with projections := index.projections.put name p }
    addProjections (p + 1) (← index.addEntities p 0 projection.entities) rest

end Index

def ofProjections (projections : List Projection) : Except Error Catalog := do
  pure ⟨projections, ← Index.addProjections 0 ⟨[], []⟩ projections⟩

def empty : Catalog := ⟨[], [], []⟩

def projection? (c : Catalog) (name : String) : Option Projection := do
  c.projections[← c.index.projections.get? (Text.lowercase name)]?

def entity? (c : Catalog) (id : String) : Option Entity := do
  let (p, e) ← c.index.entities.get? id
  (← c.projections[p]?).entities[e]?

def entityIn (c : Catalog) (projection entity : String) : Except Error Entity :=
  match c.projection? projection with
  | none => .error (.projectionNotFound projection)
  | some p =>
    match p.entity? entity with
    | none => .error (.entityMetadataNotFound s!"{projection}.{entity}")
    | some e => .ok e

def entities (c : Catalog) : List Entity := c.projections.flatMap (·.entities)

def entityCount (c : Catalog) : Nat := c.index.entities.length

/-- The path expressions of all fields that extract a part, as far as they can be read. -/
def paths (c : Catalog) : Table String Json.Path :=
  (c.entities.flatMap (·.fields)).foldl addPath []
where
  addPath (paths : Table String Json.Path) (f : Field) : Table String Json.Path :=
    match f.kind, f.path with
    | .path, some expression =>
      match Json.Path.parse expression with
      | .ok path => paths.put expression path
      | .error _ => paths
    | _, _ => paths

end Catalog

end Fieldwise
