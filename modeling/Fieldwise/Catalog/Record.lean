import Fieldwise.Catalog.Entity
import Fieldwise.Json.Fields

/-!
Fields, entities and projections as JSON records: their names in order, which of them may be left
out, and how they are written. A field that is left out has its default value; of the fields that
have none to show, nothing is written.
-/

namespace Fieldwise

open Json (Node)

/-- A field that is written if it has a value. -/
def Json.optionalField (name : String) (value : Option String) : List (String × Json) :=
  match value with
  | none => []
  | some s => [(name, .text s)]

namespace Field

def recordNames : List String :=
  ["name", "property", "mapping_kind", "mandatory", "constant_id", "json_path",
   "custom_mapping_qualifier", "related_entity_id", "description"]

def toJson (f : Field) : Json :=
  .object
    ([("name", .text f.name), ("property", .text f.property), ("mapping_kind", .text f.kind.name),
      ("mandatory", .boolean f.mandatory)] ++
    Json.optionalField "constant_id" f.constantId ++
    Json.optionalField "json_path" f.path ++
    Json.optionalField "custom_mapping_qualifier" f.qualifier ++
    Json.optionalField "related_entity_id" f.relatedId ++
    Json.optionalField "description" f.description)

def ofNode? (node : Node) : Option Field := do
  let optionalText? := Node.orDefault? none (Node.optional? Node.text?)
  match ← node.fields? recordNames with
  | [some name, property, some kind, mandatory, constantId, path, qualifier, relatedId,
      description] =>
    pure {
      name := ← name.text?
      property := ← Node.orDefault? "" Node.text? property
      kind := .ofText (← kind.text?)
      mandatory := ← Node.orDefault? false Node.boolean? mandatory
      constantId := ← optionalText? constantId
      path := ← optionalText? path
      qualifier := ← optionalText? qualifier
      relatedId := ← optionalText? relatedId
      description := ← optionalText? description }
  | _ => none

end Field

namespace Entity

def recordNames : List String :=
  ["id", "name", "table_id", "external_name", "rest_endpoint", "fields", "description"]

def toJson (e : Entity) : Json :=
  .object
    ([("id", .text e.id), ("name", .text e.name), ("table_id", .text e.table)] ++
    Json.optionalField "external_name" e.externalName ++
    [("rest_endpoint", .boolean e.endpoint), ("fields", .array (e.fields.map Field.toJson))] ++
    Json.optionalField "description" e.description)

def ofNode? (node : Node) : Option Entity := do
  let optionalText? := Node.orDefault? none (Node.optional? Node.text?)
  match ← node.fields? recordNames with
  | [some id, some name, some table, externalName, endpoint, fields, description] =>
    pure {
      id := ← id.text?
      name := ← name.text?
      table := ← table.text?
      externalName := ← optionalText? externalName
      endpoint := ← Node.orDefault? true Node.boolean? endpoint
      fields := ← Node.orDefault? [] (Node.list? Field.ofNode?) fields
      description := ← optionalText? description }
  | _ => none

end Entity

namespace Projection

def recordNames : List String := ["id", "name", "description", "entities"]

def toJson (p : Projection) : Json :=
  .object
    ([("id", .text p.id), ("name", .text p.name)] ++
    Json.optionalField "description" p.description ++
    [("entities", .array (p.entities.map Entity.toJson))])

def ofNode? (node : Node) : Option Projection := do
  match ← node.fields? recordNames with
  | [some id, some name, description, entities] =>
    pure {
      id := ← id.text?
      name := ← name.text?
      description := ← Node.orDefault? none (Node.optional? Node.text?) description
      entities := ← Node.orDefault? [] (Node.list? Entity.ofNode?) entities }
  | _ => none

end Projection

/-- Reads the whole of a text as one record. -/
def Json.recordOfText {α : Type} (ofNode? : Node → Option α) (s : String) : Except Error α :=
  match (Node.ofText? s).bind ofNode? with
  | some a => .ok a
  | none => .error .invalidJson

end Fieldwise
