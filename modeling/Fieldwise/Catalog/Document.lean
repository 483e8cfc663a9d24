import Fieldwise.Catalog
import Fieldwise.Catalog.Record
import Fieldwise.Json.Printer

/-!
Catalogs as documents: an object with the version of its layout and the list of projections. A
list of projections without a version is read as well.
-/

namespace Fieldwise

structure CatalogDocument where
  version : Nat
  projections : List Projection
deriving DecidableEq

namespace CatalogDocument

def currentVersion : Nat := 1

/-- How the names of files that hold such documents end. -/
def extension : String := "json"

def ofProjections (projections : List Projection) : CatalogDocument :=
  ⟨currentVersion, projections⟩

def toJson (d : CatalogDocument) : Json :=
  .object [("schema_version", .ofNat d.version),
    ("projections", .array (d.projections.map Projection.toJson))]

def text (d : CatalogDocument) : String := d.toJson.pretty

def ofNode? (node : Json.Node) : Option CatalogDocument := do
  match ← node.fields? ["schema_version", "projections"] with
  | [some version, projections] =>
    pure {
      version := ← version.natBelow? (2 ^ 32)
      projections :=
        ← Json.Node.orDefault? [] (Json.Node.list? Projection.ofNode?) projections }
  | _ => none

def ofText (s : String) : Except Error CatalogDocument := Json.recordOfText ofNode? s

def needsMigration (d : CatalogDocument) : Bool := d.version < currentVersion

/-- The same document in the current layout. All earlier layouts are alike but for the number. -/
def migrate (d : CatalogDocument) : Except Error CatalogDocument :=
  if currentVersion < d.version then .error (.schemaVersionMismatch currentVersion d.version)
  else .ok { d with version := currentVersion }

/-- The projections of a document, or those of a list without a version. -/
def projectionsOfText (s : String) : Except Error (List Projection) :=
  match ofText s with
  | .ok d => d.migrate.map (·.projections)
  | .error _ => Json.recordOfText (Json.Node.list? Projection.ofNode?) s

end CatalogDocument

namespace Catalog

def ofText (s : String) : Except Error Catalog := do
  ofProjections (← CatalogDocument.projectionsOfText s)

def document (c : Catalog) : CatalogDocument := .ofProjections c.projections

def text (c : Catalog) : String := c.document.text

end Catalog

end Fieldwise
