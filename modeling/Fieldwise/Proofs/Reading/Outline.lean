import Fieldwise.Conversion.Reading
import Mathlib.Data.List.Forall2
import Mathlib.Data.List.Nodup

/-!
Outlines of records. An outline has the shape of a record and says of each value which object
stands behind it, and whether the object is shown in full. Read from the front, the objects of an
outline come in the order in which they were met, an enclosing record before what it encloses.
-/

namespace Fieldwise

inductive Outline
  /-- A value that shows no related object. -/
  | plain (v : Json)
  /-- An object in two words, met through a field. -/
  | stub (f : Field) (h : Handle)
  /-- The record of an object, with a value for each field of the entity. -/
  | full (h : Handle) (entity : Entity) (values : List Outline)
  | list (items : List Outline)

/-- A place in an outline where an object is shown. -/
inductive Occurrence
  | full (h : Handle) (entity : Entity)
  | stub (f : Field) (h : Handle)

def Entity.fieldNames (entity : Entity) : List String := entity.fields.map (·.name)

/-- The object and the entity of an occurrence in full. -/
def Occurrence.full? : Occurrence → Option (Handle × Entity)
  | full h entity => some (h, entity)
  | stub _ _ => none

namespace Outline

@[induction_eliminator]
theorem induct {motive : Outline → Prop} (plain : ∀ v, motive (.plain v))
    (stub : ∀ f h, motive (.stub f h))
    (full : ∀ h entity values, (∀ o ∈ values, motive o) → motive (.full h entity values))
    (list : ∀ items, (∀ o ∈ items, motive o) → motive (.list items)) (o : Outline) : motive o :=
  @rec motive (fun items => ∀ o ∈ items, motive o) plain stub full list (by simp)
    (fun o _ ho hrest => by simpa using ⟨ho, hrest⟩) o

mutual

def json (heap : Heap) : Outline → Json
  | plain v => v
  | stub _ h => heap.stub h
  | full _ entity values => .object (entity.fieldNames.zip (jsons heap values))
  | list items => .array (jsons heap items)

def jsons (heap : Heap) : List Outline → List Json
  | [] => []
  | o :: rest => o.json heap :: jsons heap rest

end

mutual

def occurrences : Outline → List Occurrence
  | plain _ => []
  | stub f h => [.stub f h]
  | full h entity values => .full h entity :: occurrencesIn values
  | list items => occurrencesIn items

def occurrencesIn : List Outline → List Occurrence
  | [] => []
  | o :: rest => o.occurrences ++ occurrencesIn rest

end

/-- An object met through a field: in two words, or in full as the entity of the field. -/
def IsOf (e : Engine) (f : Field) (h : Handle) : Outline → Prop
  | stub f' h' => f' = f ∧ h' = h
  | full h' entity _ => h' = h ∧ e.related? f = some entity
  | _ => False

/-- An item of a list: an object met through the field of the list, or null. -/
def IsItem (e : Engine) (f : Field) (o : Outline) : PropertyValue → Prop
  | .reference h => o.IsOf e f h
  | _ => o = .plain .null

/-- The outline of a field of an object: all objects that the property refers to, in order. -/
def Shows (e : Engine) (heap : Heap) (h : Handle) (f : Field) (o : Outline) : Prop :=
  if f.kind = .reference then
    match e.registry.getPath heap h f.property with
    | .ok (.reference g) => o.IsOf e f g
    | .ok (.list items) => ∃ os, o = .list os ∧ List.Forall₂ (IsItem e f) os items
    | _ => o = .plain .null
  else ∃ v, o = .plain v

mutual

/-- Wherever an object is shown in full, the values are outlines of its fields. -/
def Faithful (e : Engine) (heap : Heap) : Outline → Prop
  | plain _ | stub _ _ => True
  | full h entity values =>
    List.Forall₂ (Shows e heap h) entity.fields values ∧ AllFaithful e heap values
  | list items => AllFaithful e heap items

def AllFaithful (e : Engine) (heap : Heap) : List Outline → Prop
  | [] => True
  | o :: rest => o.Faithful e heap ∧ AllFaithful e heap rest

end

/-- The objects shown in full in an outline, each with its entity. -/
def shown (o : Outline) : List (Handle × Entity) := o.occurrences.filterMap Occurrence.full?

@[simp] theorem jsons_eq_map (heap : Heap) (os : List Outline) :
    jsons heap os = os.map (json heap) := by
  induction os with
  | nil => rfl
  | cons o rest ih => simp [jsons, ih]

@[simp] theorem occurrencesIn_eq_flatMap (os : List Outline) :
    occurrencesIn os = os.flatMap occurrences := by
  induction os with
  | nil => rfl
  | cons o rest ih => simp [occurrencesIn, ih]

@[simp] theorem allFaithful_iff {e : Engine} {heap : Heap} {os : List Outline} :
    AllFaithful e heap os ↔ ∀ o ∈ os, o.Faithful e heap := by
  induction os with
  | nil => simp [AllFaithful]
  | cons o rest ih => simp [AllFaithful, ih]

end Outline

/-- Objects met in this order, after those that have been seen: each is shown in full only where
its identity is met first, and in two words only later, or where its entity is not known. -/
def FirstInFull (e : Engine) (heap : Heap) : List IdentityKey → List Occurrence → Prop
  | _, [] => True
  | seen, .full h _ :: rest =>
    .of heap h ∉ seen ∧ FirstInFull e heap (seen ++ [.of heap h]) rest
  | seen, .stub f h :: rest =>
    (.of heap h ∈ seen ∨ e.related? f = none) ∧ FirstInFull e heap seen rest

def fullKeys (heap : Heap) (occurrences : List Occurrence) : List IdentityKey :=
  (occurrences.filterMap Occurrence.full?).map fun shown => .of heap shown.1

@[simp] theorem fullKeys_nil (heap : Heap) : fullKeys heap [] = [] := rfl

@[simp] theorem fullKeys_append (heap : Heap) (before after : List Occurrence) :
    fullKeys heap (before ++ after) = fullKeys heap before ++ fullKeys heap after := by
  simp [fullKeys]

@[simp] theorem fullKeys_cons_full (heap : Heap) (h : Handle) (entity : Entity)
    (rest : List Occurrence) :
    fullKeys heap (.full h entity :: rest) = .of heap h :: fullKeys heap rest := by
  simp [fullKeys, Occurrence.full?]

@[simp] theorem fullKeys_cons_stub (heap : Heap) (f : Field) (h : Handle)
    (rest : List Occurrence) : fullKeys heap (.stub f h :: rest) = fullKeys heap rest := rfl

namespace FirstInFull

variable {e : Engine} {heap : Heap} {seen : List IdentityKey} {before after : List Occurrence}

theorem append_iff :
    FirstInFull e heap seen (before ++ after) ↔
      FirstInFull e heap seen before ∧
        FirstInFull e heap (seen ++ fullKeys heap before) after := by
  induction before generalizing seen with
  | nil => simp [FirstInFull]
  | cons occurrence rest ih =>
    cases occurrence with
    | full h entity => simp [FirstInFull, ih, and_assoc]
    | stub f h => simp [FirstInFull, ih, and_assoc]

/-- Nothing is shown in full that was seen before, and nothing twice. -/
theorem nodup_append_fullKeys {occurrences : List Occurrence} (hseen : seen.Nodup)
    (h : FirstInFull e heap seen occurrences) : (seen ++ fullKeys heap occurrences).Nodup := by
  induction occurrences generalizing seen with
  | nil => simpa using hseen
  | cons occurrence rest ih =>
    cases occurrence with
    | full g entity =>
      obtain ⟨hnew, hrest⟩ := h
      have hseen' : (seen ++ [IdentityKey.of heap g]).Nodup := by
        rw [List.nodup_append]
        exact ⟨hseen, by simp, fun k hk k' hk' => by
          rw [List.mem_singleton] at hk'
          exact fun heq => hnew (hk' ▸ heq ▸ hk)⟩
      simpa using ih hseen' hrest
    | stub f g =>
      rw [fullKeys_cons_stub]
      exact ih hseen h.2

theorem stub_seen {f : Field} {g : Handle}
    (h : FirstInFull e heap seen (before ++ .stub f g :: after)) :
    .of heap g ∈ seen ++ fullKeys heap before ∨ e.related? f = none :=
  (append_iff.mp h).2.1

end FirstInFull

end Fieldwise
