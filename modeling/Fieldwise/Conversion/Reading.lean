import Fieldwise.Conversion.Rendering
import Fieldwise.Engine
import Fieldwise.Json.Reader

/-!
From business objects to records. Every field of a record is there: one that cannot be read is
null. A related object is shown in full where it is met first, and as a stub from then on, so a
record is finite whatever the graph. Reading changes nothing but the context.
-/

namespace Fieldwise

/-- Reading with a context; visits are kept even if it fails. -/
abbrev Reading := EStateM Failure Context

namespace Reading

def lift {α : Type} (result : Except Error α) : Reading α := fun c =>
  match result with
  | .ok a => .ok a c
  | .error e => .error (.error e) c

/-- A failed reading gives null, unless formats are at fault. -/
def orNull (reading : Reading Json) : Reading Json := fun c =>
  match reading c with
  | .error (.error _) c => .ok .null c
  | result => result

end Reading

namespace Engine

def readDirect (e : Engine) (w : World) (h : Handle) (f : Field) : Reading Json := do
  let v ← Reading.lift (e.registry.getPath w.heap h f.property)
  match render? e.settings (fun h => (w.heap.get h).identifier) v with
  | some shown => pure shown
  | none => throw .unformattable

def readConstant (e : Engine) (f : Field) : Except Error Json := do
  let some id := f.constantId
    | throw (.fieldValidation "" f.name "constant field has no constant id")
  match ← e.constants id with
  | some v => pure v
  | none => throw (.constantNotFound id)

/-- The path of an expression, known from the catalog or read now. -/
def path (e : Engine) (expression : String) : Except Error Json.Path :=
  match e.paths.get? expression with
  | some p => .ok p
  | none => Json.Path.parse expression

/-- The document in a value of a property; there is none in null and in blank text. -/
def documentOf (expression : String) (f : Field) : PropertyValue → Except Error (Option Json)
  | .null => .ok none
  | .text s =>
    if Text.isBlank s then .ok none
    else
      match Json.ofText? s with
      | some document => .ok (some document)
      | none => .error (.pathExtraction expression "source is not valid JSON")
  | .json document => .ok (some document)
  | other => .error (.typeMismatch f.property "text or json" other.label)

/-- The part of a document that the path of a field leads to; null if there is none. -/
def readPath (e : Engine) (w : World) (h : Handle) (f : Field) : Except Error Json := do
  let some expression := f.path
    | throw (.pathExtraction "" s!"field '{f.name}' has no path expression")
  match ← documentOf expression f (← e.registry.getPath w.heap h f.property) with
  | none => pure .null
  | some document => pure (((← e.path expression).find? document).getD .null)

def readCustom (e : Engine) (w : World) (h : Handle) (f : Field) : Reading Json := do
  let qualifier := f.qualifier.getD ""
  match e.custom.reader? qualifier with
  | some read => Reading.lift (read w h f (← get))
  | none => throw (.error (.customMapping qualifier "no reader registered"))

/-- A related object: in full by `nested` where it is met first, and if its entity is known. -/
def readRelated (e : Engine) (nested : Handle → Entity → Reading Record) (w : World) (f : Field)
    (h : Handle) : Reading Json := do
  if (← get).isVisited (.of w.heap h) then pure (w.heap.stub h)
  else
    match e.related? f with
    | some entity => Json.object <$> nested h entity
    | none => pure (w.heap.stub h)

def readItem (e : Engine) (nested : Handle → Entity → Reading Record) (w : World) (f : Field) :
    PropertyValue → Reading Json
  | .reference h => e.readRelated nested w f h
  | _ => pure .null

def readReference (e : Engine) (nested : Handle → Entity → Reading Record) (w : World)
    (h : Handle) (f : Field) : Reading Json := do
  match ← Reading.lift (e.registry.getPath w.heap h f.property) with
  | .null => pure .null
  | .reference related => e.readRelated nested w f related
  | .list items => Json.array <$> items.mapM (e.readItem nested w f)
  | other => throw (.error (.typeMismatch f.property "reference" other.label))

def readBy (e : Engine) (nested : Handle → Entity → Reading Record) (w : World) (h : Handle)
    (f : Field) : Strategy → Reading Json
  | .direct => e.readDirect w h f
  | .constant => Reading.lift (e.readConstant f)
  | .reference => e.readReference nested w h f
  | .custom => e.readCustom w h f
  | .path => Reading.lift (e.readPath w h f)

def readEntry (e : Engine) (nested : Handle → Entity → Reading Record) (w : World) (h : Handle)
    (f : Field) : Reading Json :=
  match f.kind.strategy? with
  | some strategy => (e.readBy nested w h f strategy).orNull
  | none => pure .null

def readEntries (e : Engine) (nested : Handle → Entity → Reading Record) (w : World) (h : Handle)
    (record : Record) : List Field → Reading Record
  | [] => pure record
  | f :: rest => do
    let v ← e.readEntry nested w h f
    e.readEntries nested w h (record.put f.name v) rest

/-- A record in which others are nested less than `depth` deep. -/
def readNested (e : Engine) (w : World) : (depth : Nat) → Handle → List Field → Reading Record
  | 0, _, _ => throw (.error (.internal "records are nested deeper than there are objects"))
  | depth + 1, h, fields => do
    modify (·.visit (.of w.heap h))
    e.readEntries (fun h entity => e.readNested w depth h entity.fields) w h [] fields

/-- No record is nested deeper: each level visits an object that was not visited before. -/
def depth (w : World) : Nat := w.heap.length + 1

def readRecord (e : Engine) (w : World) (h : Handle) (fields : List Field) : Reading Record :=
  e.readNested w (depth w) h fields

def readField? (e : Engine) (w : World) (h : Handle) (f : Field) : Option (Reading Json) := do
  let strategy ← f.kind.strategy?
  pure (e.readBy (fun h entity => e.readRecord w h entity.fields) w h f strategy)

def toRecord (e : Engine) (w : World) (h : Handle) (entity : Entity) : Except Failure Record :=
  match (e.readRecord w h entity.fields).run .forRead with
  | .ok record _ => .ok record
  | .error failure _ => .error failure

section

variable {e e' : Engine} {w w' : World}
  (hread : ∀ nested h f s, e'.readBy nested w' h f s = e.readBy nested w h f s)

include hread

theorem readEntries_congr (nested : Handle → Entity → Reading Record) (h : Handle)
    (record : Record) (fields : List Field) :
    e'.readEntries nested w' h record fields = e.readEntries nested w h record fields := by
  induction fields generalizing record with
  | nil => rfl
  | cons f rest ih => simp only [readEntries, readEntry, hread, ih]

theorem readNested_congr (hheap : w'.heap = w.heap) (d : Nat) (h : Handle) (fields : List Field) :
    e'.readNested w' d h fields = e.readNested w d h fields := by
  induction d generalizing h fields with
  | zero => rfl
  | succ d ih => simp only [readNested, ih, readEntries_congr hread, hheap]

theorem toRecord_congr (hheap : w'.heap = w.heap) (h : Handle) (entity : Entity) :
    e'.toRecord w' h entity = e.toRecord w h entity := by
  simp only [toRecord, readRecord, depth, readNested_congr hread hheap, hheap]

end

end Engine

end Fieldwise
