import Fieldwise.Proofs.ExternalId.Translated
import Fieldwise.Proofs.Service.Calls

/-!
What creating an object does to what can be found by an id. The new object is put into the store
under its type and id, whatever is there, and the id in its record is bound to it if that id is not
known; nothing else is different for those who look for stored objects.
-/

namespace Fieldwise

/-- The id in a record, if it is to be bound to the object that the record is of. -/
def World.unknownId? (w : World) (table : String) (record : Record) : Option String :=
  match record.get? "id" with
  | some (.text s) =>
    if Text.isBlank s ∨ (w.bindings.get? (table, s)).isSome then none else some s
  | _ => none

namespace Translation

variable {e : Engine} {newId : Nat → String}

theorem lookup_keptInWorld (hkept : e.KeptInWorld newId) (w : World) (table s : String) :
    lookup e w table s = match w.bindings.get? (table, s), e.settings.externalIdMode with
      | some id, _ => .ok (some id)
      | none, .strict => .error (.externalIdNotFound table s)
      | none, .lenient => .ok none := by
  unfold lookup
  rw [hkept.externalIds]
  simp only [ExternalIds.inMemory, bind, Except.bind]
  cases w.bindings.get? (table, s) <;> cases e.settings.externalIdMode <;> rfl

theorem unknownOwnId?_keptInWorld (hkept : e.KeptInWorld newId) (w : World) (table : String)
    (record : Record) : unknownOwnId? e w table record = w.unknownId? table record := by
  unfold unknownOwnId? World.unknownId?
  rw [hkept.externalIds]
  cases record.get? "id" with
  | none => rfl
  | some v =>
    cases v with
    | text s =>
      simp only [ExternalIds.inMemory]
      by_cases hblank : Text.isBlank s <;> cases w.bindings.get? (table, s) <;> simp [hblank]
    | _ => rfl

end Translation

namespace Engine

variable {e : Engine} {w w' : World} {newId : Nat → String}

/-- Bindings after an id that was not known, if there was one, has been bound to that of an
object. -/
def rebound (bindings : Table (String × String) String) (table : String) :
    (unknown id? : Option String) → Table (String × String) String
  | some s, some id => if s = id then bindings else bindings.put (table, s) id
  | _, _ => bindings

/-- What creating an object comes to for those who look for objects: it is stored under some key,
and the id in its record is bound to its own one if it was not known. -/
structure Created (e : Engine) (entity : Entity) (record : Record) (w w' : World) : Prop where
  types : e.typeNow w' = e.typeNow w
  store : ∃ key, w'.store = w.store.put key w.heap.length
  bindings : w'.bindings = rebound w.bindings entity.table (w.unknownId? entity.table record)
    (w'.heap.get w.heap.length).id?
  identified : w.unknownId? entity.table record ≠ none → (w'.heap.get w.heap.length).id? ≠ none

theorem typeNow_of_tableTypes (h : w'.tableTypes = w.tableTypes) : e.typeNow w' = e.typeNow w := by
  unfold typeNow
  rw [h]

theorem shown_eq_ok {h : Handle} {entity : Entity} {record : Record}
    (hshown : e.shown h entity w = .ok record w') :
    w' = w ∧ e.toRecord w h entity = .ok record := by
  obtain ⟨_, _, ⟨rfl, rfl⟩, hshown⟩ := bind_eq_ok.mp hshown
  cases hread : e.toRecord w h entity with
  | error failure => simp [hread] at hshown
  | ok record' =>
    obtain ⟨rfl, rfl⟩ : record' = record ∧ w = w' := by simpa [hread] using hshown
    exact ⟨rfl, rfl⟩

theorem prepare_create_eq_new (e : Engine) {projection name : String} {record : Record} {job : Job}
    (h : e.prepare (.create projection name record) w = .ok job w') :
    ∃ typeName type, e.exposed projection name = .ok job.entity ∧
      e.typeNow w job.entity.table = .ok typeName ∧ e.registry.type? typeName = some type ∧
      job.target = w.heap.length ∧ w'.heap = w.heap ++ [type.create] ∧ job.isNew = true ∧
      job.translation = (e.translate w job.entity record).2 ∧ job.translation.error? = none ∧
      job.record = if job.translation.deferrals.isEmpty then (e.translate w job.entity record).1
        else (e.translate w job.entity record).1.remove "id" := by
  simp only [prepare, bind_eq_ok, Action.lift_eq_ok] at h
  obtain ⟨entity, _, ⟨hexposed, rfl⟩, result, w₁, htranslated, target, w₂, htarget, h⟩ := h
  obtain ⟨rfl, rfl, herror⟩ := translated_eq_ok htranslated
  obtain ⟨typeName, type, hnow, htype, hnew, hheap⟩ :=
    exists_type_of_instantiate (instantiate_of_target htarget)
  cases h
  exact ⟨typeName, type, hexposed, hnow, htype, hnew, hheap, rfl, rfl, herror, rfl⟩

/-- What finishing a job comes to: the object is stored, an unknown id is bound to its own one, and
then it is shown. -/
structure Finished (e : Engine) (newId : Nat → String) (job : Job) (unknown : Option String)
    (shown : Record) (w w' : World) : Prop where
  heap : w'.heap = (w.save newId job.target).heap
  store : w'.store = (w.save newId job.target).store
  types : e.typeNow w' = e.typeNow w
  bindings : w'.bindings =
    rebound w.bindings job.entity.table unknown (w'.heap.get job.target).id?
  identified : unknown ≠ none → (w'.heap.get job.target).id? ≠ none
  shown : e.toRecord w' job.target job.entity = .ok shown

namespace KeptInWorld

variable (hkept : e.KeptInWorld newId)

include hkept

theorem bindDeferrals_eq_ok {t : Translation} {table : String} {unknown : Option String}
    {h : Handle} {n : Nat} (ht : t.deferrals = unknown.toList.map fun s => ⟨table, s⟩)
    (hbound : e.bindDeferrals t h w = .ok n w') :
    w' = { w with bindings := rebound w.bindings table unknown (w.heap.get h).id? } ∧
      (unknown ≠ none → (w.heap.get h).id? ≠ none) := by
  unfold bindDeferrals at hbound
  cases unknown with
  | none =>
    simp only [ht, Option.toList_none, List.map_nil, List.isEmpty_nil] at hbound
    cases hbound
    exact ⟨rfl, fun hnone => (hnone rfl).elim⟩
  | some s =>
    simp only [ht, Option.toList_some, List.map_cons, List.map_nil, List.isEmpty_cons,
      Bool.false_eq_true, if_false, bind_apply, get_apply] at hbound
    cases hid : (w.heap.get h).id? with
    | none => simp [hid] at hbound
    | some id =>
      rw [hid, hkept.externalIds] at hbound
      refine ⟨?_, fun _ => by simp⟩
      by_cases hs : s = id
      · have hdue : [Deferral.mk table s].filter (·.externalId ≠ id) = [] := by simp [hs]
        simp only [hdue] at hbound
        cases hbound
        simp [rebound, hs]
      · have hdue : [Deferral.mk table s].filter (·.externalId ≠ id) = [⟨table, s⟩] := by simp [hs]
        simp only [hdue] at hbound
        cases hbound
        simp [rebound, hs]

theorem finish_eq_ok {job : Job} {unknown : Option String} {shown : Record}
    (hdeferrals : job.translation.deferrals =
      unknown.toList.map fun s => ⟨job.entity.table, s⟩)
    (h : e.finish job w = .ok shown w') : e.Finished newId job unknown shown w w' := by
  simp only [finish, hkept.persistence, bind_eq_ok] at h
  obtain ⟨_, w₁, hsaved, n, w₂, hbound, hshown⟩ := h
  obtain rfl : w.save newId job.target = w₁ := by
    cases hsaved
    rfl
  obtain ⟨rfl, hidentified⟩ := hkept.bindDeferrals_eq_ok hdeferrals hbound
  obtain ⟨rfl, hread⟩ := shown_eq_ok hshown
  obtain ⟨key, heap, issued, -, hsave⟩ := w.save_eq newId job.target
  refine ⟨rfl, rfl, typeNow_of_tableTypes ?_, ?_, hidentified, hread⟩
  · rw [hsave]
  · rw [hsave]

end KeptInWorld

namespace InMemory

variable (hmemory : e.InMemory newId)

include hmemory

theorem createRecord_eq_ok {projection name : String} {record shown : Record}
    (h : e.createRecord projection name record w = .ok shown w') :
    ∃ entity, e.exposed projection name = .ok entity ∧ e.Created entity record w w' := by
  have hrun : e.run (.create projection name record) w = .ok shown w' := h
  obtain ⟨job, w₁, w₂, hprepare, hwrite, hfinish⟩ := run_eq_ok.mp hrun
  obtain ⟨-, -, hexposed, -, -, htarget, -, -, htranslation, herror, -⟩ :=
    e.prepare_create_eq_new hprepare
  have hdeferrals := Translation.deferrals_translate (htranslation ▸ herror)
  rw [← htranslation, Translation.unknownOwnId?_keptInWorld hmemory.toKeptInWorld] at hdeferrals
  have hchanges := hmemory.changesObjects_of_phases hprepare hwrite
  have hfinished := hmemory.finish_eq_ok hdeferrals hfinish
  obtain ⟨key, heap, issued, -, hsave⟩ := w₂.save_eq newId job.target
  refine ⟨job.entity, hexposed, hfinished.types.trans hchanges.types, ⟨key, ?_⟩, ?_,
    htarget ▸ hfinished.identified⟩
  · rw [hfinished.store, hsave, ← htarget, ← hchanges.store]
  · rw [hfinished.bindings, htarget, hchanges.bindings]

end InMemory

theorem get?_rebound {bindings : Table (String × String) String} {table asked id : String}
    {unknown id? : Option String}
    (h : ¬ (asked = table ∧ unknown = some id ∧ id? ≠ some id)) :
    (rebound bindings table unknown id?).get? (asked, id) = bindings.get? (asked, id) := by
  cases unknown with
  | none => rfl
  | some s =>
    cases id? with
    | none => rfl
    | some own =>
      simp only [rebound]
      split
      · rfl
      · rename_i hs
        apply Table.get?_put_of_ne
        rintro ⟨rfl, rfl⟩
        exact h ⟨rfl, rfl, fun hid => hs (Option.some.inj hid).symm⟩

/-- An id in a table is bound to the object that has just been created. -/
def Redirected (entity : Entity) (record : Record) (w w' : World) (table id : String) : Prop :=
  table = entity.table ∧ w.unknownId? entity.table record = some id ∧
    (w'.heap.get w.heap.length).id? ≠ some id

/-- The object that has just been created is stored under a type and an id. -/
def Occupied (w w' : World) (typeName id : String) : Prop :=
  w'.store.get? (typeName, id) = some w.heap.length

/-- What an object is found under, and where. -/
def foundAt (e : Engine) (projection name : String) (w : World) (id : String) :
    Option (String × String × Option Handle) :=
  (value? (e.lookUp projection name id) w).map fun l => (l.typeName, l.id, l.found)

theorem exists_lookUp_of_foundAt {e : Engine} {projection name id : String} {w : World}
    {found : String × String × Option Handle} (h : foundAt e projection name w id = some found) :
    ∃ l w', e.lookUp projection name id w = .ok l w' ∧
      (l.typeName, l.id, l.found) = found := by
  obtain ⟨l, hl, hfound⟩ := Option.map_eq_some_iff.mp h
  exact ⟨l, _, eq_ok_of_value? hl, hfound⟩

abbrev productAt : World → String → Option (String × String × Option Handle) :=
  foundAt Sample.engine "sales" "Product"

def createProduct (record : Record) : Action Record :=
  Sample.engine.createRecord "sales" "Product" record

theorem exists_createProduct {w : World} {record : Record}
    (h : (value? (createProduct record) w).isSome) :
    ∃ shown, createProduct record w = .ok shown (after (createProduct record) w) :=
  exists_eq_ok_of_value? h

/-- A world in which one product is stored, and known by the id X as well. -/
def named : World :=
  after (Sample.engine.perform
    (.change (.create "sales" "Product" [("id", .text "X"), ("sku", .text "A100")]))) World.empty

def another : Record := [("sku", .text "B200")]

end Engine

namespace Sample

/-- Of the sample types the one that has custom fields. -/
def archiveRegistry : Registry where
  types := [document].map fun d => (d.name, d.entityType)
  tables := [document].map fun d => (d.table, d.name)

def archive : Engine := { engine with
  registry := archiveRegistry
  tableTypes := .ofRegistry archiveRegistry
  audit? := some (.stamps archiveRegistry "system" moment) }

/-- Whatever is written, the external id X leads elsewhere from then on. -/
def rebind : CustomWriter := fun _ _ _ w =>
  .ok () { w with bindings := w.bindings.put (document.table, "X") "Y" }

def rebinding : Engine := { archive with custom := ⟨[], [("calc", rebind)]⟩ }

/-- A world in which a document is stored, and known by the id X as well. -/
def archived : World :=
  after (rebinding.perform (.change (.create "docs" "Doc" [("id", .text "X")]))) World.empty

end Sample

namespace Engine

end Engine

end Fieldwise
