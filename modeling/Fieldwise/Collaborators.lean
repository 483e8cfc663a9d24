import Fieldwise.Catalog.Field
import Fieldwise.Conversion.Context
import Fieldwise.World

/-!
What the engine asks others to do. Those that only look may look at the whole world.
-/

namespace Fieldwise

/-- Keeps business objects, by the name of their type and their id. -/
structure Persistence where
  load : (typeName id : String) → World → Except Error (Option Handle)
  /-- An object without an id gets one. -/
  save : Handle → Action Unit

/-- Knows which internal id an external one stands for, in each table. -/
structure ExternalIds where
  resolve : (table externalId : String) → World → Except Error (Option String)
  bind : (table externalId id : String) → Action Unit

/-- The internal id, or the external one where none is found. -/
def ExternalIds.convert (ids : ExternalIds) (table externalId : String) (w : World) : String :=
  match ids.resolve table externalId w with
  | .ok (some id) => id
  | _ => externalId

abbrev Constants := String → Except Error (Option Json)

/-- The names of the types whose objects the tables hold. -/
abbrev TableTypes := String → Except Error (Option String)

/-- Marks a written object, which is new or not. -/
abbrev Audit := (h : Handle) → (isNew : Bool) → Action Unit

/-- Makes the value of a custom field. It only looks; an `ActiveReader` may change something, too.
-/
abbrev CustomReader := World → Handle → Field → Context → Except Error Json

/-- Writes a custom field; it is given the whole record. -/
abbrev CustomWriter := Handle → Record → Field → Action Unit

/-- Custom readers and writers, by qualifier. -/
structure CustomMappings where
  readers : Table String CustomReader
  writers : Table String CustomWriter

namespace CustomMappings

def none : CustomMappings := ⟨[], []⟩

def reader? (m : CustomMappings) (qualifier : String) : Option CustomReader :=
  m.readers.get? qualifier

def writer? (m : CustomMappings) (qualifier : String) : Option CustomWriter :=
  m.writers.get? qualifier

def qualifiers (m : CustomMappings) : List String :=
  (m.readers.keys ++ m.writers.keys.filter (!m.readers.has ·)).mergeSort
    fun a b => !(b < a : Bool)

end CustomMappings

end Fieldwise
