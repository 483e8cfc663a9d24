import Fieldwise.Engine
import Fieldwise.Sample

/-!
An engine over the sample types and the sample catalog, with everything kept in the world and
stamps of a fixed time; and a world of nodes.
-/

namespace Fieldwise.Sample

def registry : Registry where
  types := types.map fun d => (d.name, d.entityType)
  tables := types.map fun d => (d.table, d.name)

def catalog : Catalog where
  projections := projections
  index := {
    projections := [("sales", 0), ("graph", 1), ("docs", 2)]
    entities := [("PRD", (0, 0)), ("CAT", (0, 1)), ("NODE", (1, 0)), ("DOC", (2, 0))] }

def moment : Calendar.DateTime where
  date := ⟨2024, 1, 2, by decide⟩
  clock := ⟨3, 4, 5, 0, by decide⟩

def engine : Engine where
  catalog := catalog
  paths := catalog.paths
  registry := registry
  settings := {}
  persistence := .inMemory numberedId
  externalIds := .inMemory
  constants := .ofTable [("CURRENCY", .text "EUR")]
  tableTypes := .ofRegistry registry
  custom := .none
  audit? := some (.stamps registry "system" moment)

def labelled (label : String) (cells : Cells) : BusinessObject :=
  ⟨node.kind, ("label", .text label) :: cells⟩

/-- Two nodes that are each other's peers, and a third; the first has the others as children. -/
def ring : World := { World.empty with
  heap := [
    labelled "a" [("peer", .reference 1), ("children", .list [.reference 1, .reference 2])],
    labelled "b" [("peer", .reference 0)],
    labelled "c" []] }

end Fieldwise.Sample
