import Fieldwise.Engine
import Fieldwise.Text.Basic

/-!
External ids in records. The id of a related object stands alone or as the entry `id` of an object.
The external ids in a record are replaced by internal ones: the id of the record itself, and the ids
of related objects in reference fields, in objects and arrays as well. What is no external id stays.
Once a look-up has failed nothing more is replaced.
-/

namespace Fieldwise.Json

mutual

def referenceId? : Json → Option String
  | text s => if Text.isBlank s then none else some (Text.trim s)
  | number n => some n.text
  | object fields => entryReferenceId? fields
  | _ => none

/-- The id in the first entry named `id`. -/
def entryReferenceId? : List (String × Json) → Option String
  | [] => none
  | (name, v) :: rest => if name = "id" then referenceId? v else entryReferenceId? rest

end

end Fieldwise.Json

namespace Fieldwise

/-- An external id that nothing is bound to. -/
structure Miss where
  field : String
  table : String
  externalId : String
deriving DecidableEq

/-- An external id that is to be bound to the object once it is saved. -/
structure Deferral where
  table : String
  externalId : String
deriving DecidableEq

/-- What was done to a record. -/
structure Translation where
  /-- How many ids have been replaced. -/
  replaced : Nat := 0
  misses : List Miss := []
  deferrals : List Deferral := []
  /-- The error that ended it. -/
  error? : Option Error := none
deriving DecidableEq

namespace Translation

/-- Finds the internal id; without one, strict mode fails and lenient mode finds nothing. -/
def lookup (e : Engine) (w : World) (table externalId : String) : Except Error (Option String) := do
  match ← e.externalIds.resolve table externalId w, e.settings.externalIdMode with
  | some id, _ => pure (some id)
  | none, .strict => throw (.externalIdNotFound table externalId)
  | none, .lenient => pure none

def miss (t : Translation) (field table externalId : String) : Translation :=
  { t with misses := t.misses ++ [⟨field, table, externalId⟩] }

/-- One id. Blank text is none. -/
def ofText (e : Engine) (w : World) (field table s : String) (t : Translation) :
    String × Translation :=
  if t.error?.isSome || Text.isBlank s then (s, t)
  else
    match lookup e w table s with
    | .ok (some id) => (id, { t with replaced := t.replaced + 1 })
    | .ok none => (s, t.miss field table s)
    | .error error => (s, { t with error? := some error })

mutual

/-- A value that refers to related objects. -/
def ofValue (e : Engine) (w : World) (field table : String) (t : Translation) :
    Json → Json × Translation
  | .text s =>
    let (s, t) := ofText e w field table s t
    (.text s, t)
  | .object fields =>
    match Table.get? "id" fields with
    | some (.text s) =>
      let (s, t) := ofText e w field table s t
      (.object (Table.put "id" (.text s) fields), t)
    | _ => (.object fields, t)
  | .array items =>
    let (items, t) := ofItems e w field table t items
    (.array items, t)
  | v => (v, t)

def ofItems (e : Engine) (w : World) (field table : String) (t : Translation) :
    List Json → List Json × Translation
  | [] => ([], t)
  | v :: rest =>
    let (v, t) := ofValue e w field table t v
    let (rest, t) := ofItems e w field table t rest
    (v :: rest, t)

end

/-- The id of the record itself; where it is not known, it is to be bound later. -/
def ofOwnId (e : Engine) (w : World) (table : String) (record : Record) : Record × Translation :=
  match record.get? "id" with
  | some (.text s) =>
    let (id, t) := ofText e w "id" table s {}
    (record.put "id" (.text id),
      { t with deferrals := t.misses.map fun m => ⟨m.table, m.externalId⟩ })
  | _ => (record, {})

def ofField (e : Engine) (w : World) (f : Field) : Record × Translation → Record × Translation
  | (record, t) =>
    match record.get? f.name, e.related? f with
    | some v, some related =>
      let (v, t) := ofValue e w f.name related.table t v
      (record.put f.name v, t)
    | _, _ => (record, t)

end Translation

/-- The record with internal ids, as far as it could be made. -/
def Engine.translate (e : Engine) (w : World) (entity : Entity) (record : Record) :
    Record × Translation :=
  entity.referenceFields.foldl (fun state f => Translation.ofField e w f state)
    (Translation.ofOwnId e w entity.table record)

namespace Engine

def internalId (e : Engine) (table id : String) : Action String := do
  pure ((← Action.observe (e.externalIds.resolve table id)).getD id)

/-- Binds the external ids that had to wait to the id of the saved object. -/
def bindDeferrals (e : Engine) (t : Translation) (h : Handle) : Action Nat := do
  if t.deferrals.isEmpty then return 0
  let some id := ((← get).heap.get h).id?
    | Action.fail (.internal "cannot bind external ids to an entity without an id")
  let due := t.deferrals.filter (·.externalId ≠ id)
  due.forM fun d => e.externalIds.bind d.table d.externalId id
  pure due.length

end Engine

end Fieldwise
