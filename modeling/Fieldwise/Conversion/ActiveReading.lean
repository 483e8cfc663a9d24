import Fieldwise.Conversion.Reading

/-!
Reading by custom readers that may change what is read: a reader is handed the object itself, so
that the fields after it may find another object than those before. The readers of an engine only
look, and with such readers this is the reading of the engine.
-/

namespace Fieldwise

/-- Makes the value of a custom field. Whatever there is may be changed on the way, also if no value
comes of it; the context is only shown. -/
abbrev ActiveReader := Handle → Field → Context → World → Except Error Json × World

def ActiveReader.looking (read : CustomReader) : ActiveReader := fun h f c w => (read w h f c, w)

/-- An engine with active readers in the place of its own. -/
structure ActiveEngine extends Engine where
  readers : Table String ActiveReader

def Engine.active (e : Engine) : ActiveEngine where
  toEngine := e
  readers := e.custom.readers.map fun entry => (entry.1, .looking entry.2)

/-- Reading with a context, in a world that may change. -/
abbrev ActiveReading := EStateM Failure (World × Context)

namespace ActiveReading

def now {α : Type} (reading : World → Reading α) : ActiveReading α := fun s =>
  match reading s.1 s.2 with
  | .ok a c => .ok a (s.1, c)
  | .error failure c => .error failure (s.1, c)

/-- A failed reading gives null, unless formats are at fault; what it has changed stays changed. -/
def orNull (reading : ActiveReading Json) : ActiveReading Json := fun s =>
  match reading s with
  | .error (.error _) s => .ok .null s
  | result => result

end ActiveReading

namespace ActiveEngine

open ActiveReading

def readCustom (a : ActiveEngine) (h : Handle) (f : Field) : ActiveReading Json := fun s =>
  let qualifier := f.qualifier.getD ""
  match a.readers.get? qualifier with
  | none => .error (.error (.customMapping qualifier "no reader registered")) s
  | some read =>
    match read h f s.2 s.1 with
    | (.ok v, w) => .ok v (w, s.2)
    | (.error e, w) => .error (.error e) (w, s.2)

def readRelated (a : ActiveEngine) (nested : Handle → Entity → ActiveReading Record) (f : Field)
    (h : Handle) : ActiveReading Json := do
  let s ← get
  if s.2.isVisited (.of s.1.heap h) then pure (s.1.heap.stub h)
  else
    match a.related? f with
    | some entity => Json.object <$> nested h entity
    | none => pure (s.1.heap.stub h)

def readItem (a : ActiveEngine) (nested : Handle → Entity → ActiveReading Record) (f : Field) :
    PropertyValue → ActiveReading Json
  | .reference h => a.readRelated nested f h
  | _ => pure .null

/-- The items are those that the property has when the field is come to. -/
def readReference (a : ActiveEngine) (nested : Handle → Entity → ActiveReading Record)
    (h : Handle) (f : Field) : ActiveReading Json := do
  match ← now fun w => Reading.lift (a.registry.getPath w.heap h f.property) with
  | .null => pure .null
  | .reference related => a.readRelated nested f related
  | .list items => Json.array <$> items.mapM (a.readItem nested f)
  | other => throw (.error (.typeMismatch f.property "reference" other.label))

def readBy (a : ActiveEngine) (nested : Handle → Entity → ActiveReading Record) (h : Handle)
    (f : Field) : Strategy → ActiveReading Json
  | .direct => now fun w => a.readDirect w h f
  | .constant => now fun _ => Reading.lift (a.readConstant f)
  | .reference => a.readReference nested h f
  | .custom => a.readCustom h f
  | .path => now fun w => Reading.lift (a.readPath w h f)

def readEntry (a : ActiveEngine) (nested : Handle → Entity → ActiveReading Record) (h : Handle)
    (f : Field) : ActiveReading Json :=
  match f.kind.strategy? with
  | some strategy => (a.readBy nested h f strategy).orNull
  | none => pure .null

def readEntries (a : ActiveEngine) (nested : Handle → Entity → ActiveReading Record) (h : Handle)
    (record : Record) : List Field → ActiveReading Record
  | [] => pure record
  | f :: rest => do
    let v ← a.readEntry nested h f
    a.readEntries nested h (record.put f.name v) rest

def readNested (a : ActiveEngine) : (depth : Nat) → Handle → List Field → ActiveReading Record
  | 0, _, _ => throw (.error (.internal "records are nested deeper than there are objects"))
  | depth + 1, h, fields => do
    modify fun s => (s.1, s.2.visit (.of s.1.heap h))
    a.readEntries (fun h entity => a.readNested depth h entity.fields) h [] fields

/-- The record of an object with the given fields. The bound on the nesting is that of an engine:
readers that add objects, or give them other identities, can make a record end there. -/
def readRecord (a : ActiveEngine) (h : Handle) (fields : List Field) : ActiveReading Record :=
  fun s => a.readNested (Engine.depth s.1) h fields s

def readField? (a : ActiveEngine) (h : Handle) (f : Field) : Option (ActiveReading Json) := do
  let strategy ← f.kind.strategy?
  pure (a.readBy (fun h entity => a.readRecord h entity.fields) h f strategy)

end ActiveEngine

end Fieldwise
