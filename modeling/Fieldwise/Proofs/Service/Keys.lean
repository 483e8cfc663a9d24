import Fieldwise.Proofs.ExternalId.Translated
import Fieldwise.Proofs.Registry.Ids
import Fieldwise.Proofs.Service.Calls

/-!
Under which keys objects are stored. The store and the calls share their objects, which are written
wherever a path leads, so an object could come to bear another id than the one under which it is
stored. Where the types guard their ids, and no field but a direct `id` has a path that ends there,
it does not: only the object of a call can get an id, and by then that object is either a new one or
written with a record that has none.
-/

namespace Fieldwise

/-- A path that ends in `id` is that property itself, in a direct field of the same name. -/
def Entity.IdIsDirect (entity : Entity) : Prop :=
  ∀ f ∈ entity.fields, (Text.pieces '.' f.property).getLast? = some "id" →
    f.kind = .direct ∧ f.name = "id" ∧ f.property = "id"

instance : DecidablePred Entity.IdIsDirect := fun entity =>
  inferInstanceAs (Decidable (∀ f ∈ entity.fields, _))

theorem Catalog.mem_entities_of_entityIn {c : Catalog} {projection name : String}
    {entity : Entity} (h : c.entityIn projection name = .ok entity) : entity ∈ c.entities := by
  unfold entityIn at h
  cases hprojection : c.projection? projection with
  | none => simp [hprojection] at h
  | some p =>
    cases hentity : p.entity? name with
    | none => simp [hprojection, hentity] at h
    | some found =>
      obtain rfl : found = entity := by simpa [hprojection, hentity] using h
      simp only [projection?, Option.bind_eq_bind, Option.bind_eq_some_iff] at hprojection
      obtain ⟨place, -, hplace⟩ := hprojection
      exact List.mem_flatMap.mpr ⟨p, List.mem_of_getElem? hplace, List.mem_of_find?_eq_some hentity⟩

namespace Translation

variable {e : Engine} {w : World}

theorem get?_translate_of_none {entity : Entity} {record : Record} {key : String}
    (h : record.get? key = none) : (e.translate w entity record).1.get? key = none := by
  rw [Table.get?_eq_none_iff, keys_translate]
  exact Table.get?_eq_none_iff.mp h

end Translation

/-- An object that a registered type has made bears the type name and the id of a key. -/
structure Heap.Bears (r : Registry) (heap : Heap) (h : Handle) (key : String × String) : Prop where
  lt : h < heap.length
  made : r.Makes (heap.get h).kind
  typeName : (heap.get h).typeName = key.1
  id : (heap.get h).id? = some key.2
  nonempty : key.2 ≠ ""

theorem Heap.Bears.of_keepsIds {r : Registry} {heap heap' : Heap} {h : Handle}
    {key : String × String} {loose : Handle → Prop} (hbears : heap.Bears r h key)
    (hkeeps : heap.KeepsIds r loose heap') (hfixed : ¬ loose h) : heap'.Bears r h key := by
  have hkind := hkeeps.kind h hbears.lt hbears.made
  refine ⟨Nat.lt_of_lt_of_le hbears.lt hkeeps.length, hkind ▸ hbears.made, ?_, ?_, hbears.nonempty⟩
  · rw [BusinessObject.typeName, hkind]
    exact hbears.typeName
  · rw [hkeeps.id h hbears.lt hbears.made hfixed]
    exact hbears.id

namespace World

/-- The same is stored, and ids are kept. -/
structure KeepsIds (r : Registry) (loose : Handle → Prop) (w w' : World) : Prop where
  store : w'.store = w.store
  heap : w.heap.KeepsIds r loose w'.heap

/-- No object is loose. -/
abbrev KeepsAllIds (r : Registry) : World → World → Prop := KeepsIds r fun _ => False

instance {r : Registry} {loose : Handle → Prop} : Std.Refl (KeepsIds r loose) :=
  ⟨fun w => ⟨rfl, .refl w.heap⟩⟩

instance {r : Registry} {loose : Handle → Prop} : IsTrans World (KeepsIds r loose) where
  trans _ _ _ h h' := ⟨h'.store.trans h.store, h.heap.trans h'.heap⟩

variable {r : Registry} {loose : Handle → Prop} {w w' : World} {newId : Nat → String}

theorem KeepsAllIds.keepsIds (h : w.KeepsAllIds r w') : w.KeepsIds r loose w' :=
  ⟨h.store, h.heap.mono fun _ hg => hg.elim⟩

/-- Everything is stored under its own type and id. -/
def Keyed (r : Registry) (w : World) : Prop :=
  ∀ key h, (key, h) ∈ w.store → w.heap.Bears r h key

namespace Keyed

theorem of_keepsIds (hw : w.Keyed r) (h : w.KeepsIds r loose w')
    (hfixed : ∀ key g, (key, g) ∈ w.store → ¬ loose g) : w'.Keyed r := by
  intro key g hg
  rw [h.store] at hg
  exact (hw key g hg).of_keepsIds h.heap (hfixed key g hg)

theorem of_keepsAllIds (hw : w.Keyed r) (h : w.KeepsAllIds r w') : w'.Keyed r :=
  hw.of_keepsIds h fun _ _ _ => id

/-- An object without an id is not stored yet, so the id that it gets is no other key's. -/
theorem save (hw : w.Keyed r) (hr : r.GuardsIds) (hnew : ∀ n, newId n ≠ "") {h : Handle}
    (hh : h < w.heap.length) (hmade : r.Makes (w.heap.get h).kind) : (w.save newId h).Keyed r := by
  unfold World.save
  dsimp only
  split
  · next id hid =>
    obtain ⟨hid, hnonempty⟩ := Option.filter_eq_some_iff.mp hid
    intro key g hg
    rcases Table.mem_of_mem_put hg with heq | hg
    · cases heq
      exact ⟨hh, hmade, rfl, hid, by simpa using hnonempty⟩
    · exact hw key g hg
  · next hid =>
    have hput : (w.heap.put h ((w.heap.get h).withId (newId w.issued))).get h =
        (w.heap.get h).withId (newId w.issued) := Heap.get_put_self hh _
    -- The key that is put in is that of the new id; any other one belongs to another object.
    intro key g hg
    rcases Table.mem_of_mem_put hg with heq | hg
    · cases heq
      refine ⟨by simpa using hh, ?_, ?_, ?_, hnew _⟩
      · rw [hput]
        exact hmade
      · rw [hput]
        rfl
      · rw [hput]
        exact hr.takesId _ hmade _ _
    · have hbears := hw key g hg
      have hne : g ≠ h := by
        rintro rfl
        simp [hbears.id, hbears.nonempty] at hid
      have hkeeps : w.heap.KeepsIds r (· = h)
          (w.heap.put h ((w.heap.get h).withId (newId w.issued))) :=
        .put (fun _ => rfl) fun _ hfixed => absurd rfl hfixed
      exact hbears.of_keepsIds hkeeps hne

theorem keys_save (hw : w.Keyed r) {key : String × String} {h : Handle}
    (hkey : (key, h) ∈ w.store) :
    (w.save newId h).store.keys = w.store.keys := by
  have hbears := hw key h hkey
  have hid : (w.heap.get h).id?.filter (· ≠ "") = some key.2 := by
    simp [hbears.id, hbears.nonempty]
  have hmem : key ∈ w.store.keys := List.mem_map_of_mem hkey
  simp only [World.save, hid, hbears.typeName, Table.keys_put]
  rw [if_pos hmem]

end Keyed

end World

/-- The object that a record is written onto may get another id if the record has one. -/
def Record.Loosens (record : Record) (h g : Handle) : Prop := g = h ∧ record.get? "id" ≠ none

/-- The record of a call that writes. -/
def Change.record : Change → Record
  | .create _ _ record | .update _ _ _ record => record

def Change.IsUpdate : Change → Prop
  | .create .. => False
  | .update .. => True

/-- Records have each of their names once. -/
def Call.WellFormed : Call → Prop
  | .get .. => True
  | .change c => c.record.keys.Nodup

instance : DecidablePred Call.WellFormed
  | .get .. => isTrue trivial
  | .change c => inferInstanceAs (Decidable c.record.keys.Nodup)

/-- A job of a known entity, with an object that a registered type has made. If that is stored, the
record has no id. -/
structure Job.Fits (e : Engine) (w : World) (job : Job) : Prop where
  entity : job.entity ∈ e.catalog.entities
  lt : job.target < w.heap.length
  made : e.registry.Makes (w.heap.get job.target).kind
  idless : ∀ key, (key, job.target) ∈ w.store → job.record.get? "id" = none

namespace Engine

/-- Objects are kept in the world; the types guard their ids, the entities show them in direct
fields only, and custom writers, the audit and the service of external ids touch none. -/
structure GuardsIds (e : Engine) (newId : Nat → String) : Prop where
  persistence : e.persistence = .inMemory newId
  newIds : ∀ n, newId n ≠ ""
  types : e.registry.GuardsIds
  entities : ∀ entity ∈ e.catalog.entities, entity.IdIsDirect
  writers : ∀ entry ∈ e.custom.writers, ∀ h record f,
    Keeps (World.KeepsAllIds e.registry) (entry.2 h record f)
  audit : ∀ audit, e.audit? = some audit → ∀ h isNew,
    Keeps (World.KeepsAllIds e.registry) (audit h isNew)
  bind : ∀ table externalId id,
    Keeps (World.KeepsAllIds e.registry) (e.externalIds.bind table externalId id)

theorem keepsAllIds_stamps {r : Registry} (hr : r.GuardsIds) (user : String)
    (now : Calendar.DateTime) (h : Handle) (isNew : Bool) :
    Keeps (World.KeepsAllIds r) (Audit.stamps r user now h isNew) := by
  refine keeps_stamps_of (fun property hproperty v => ?_) user now isNew
  refine .changeHeap (fun w heap hset => ⟨rfl, ?_⟩) (refl_of _)
  refine (Heap.KeepsIds.setProperty hr hset).mono ?_
  rintro g ⟨-, rfl⟩
  exact absurd hproperty (by decide)

variable {e : Engine} {w w' w₁ w₂ : World} {newId : Nat → String}

theorem AddsObjects.keepsAllIds {r : Registry} (h : e.AddsObjects w w') : w.KeepsAllIds r w' :=
  ⟨h.store, .of_extends h.heap⟩

theorem Learns.keepsIds {r : Registry} {loose : Handle → Prop} (h : e.Learns w w') :
    w.KeepsIds r loose w' :=
  h.addsObjects.keepsAllIds.keepsIds

theorem lookUp_eq_ok (hpersistence : e.persistence = .inMemory newId)
    {projection name id : String} {l : Lookup} (h : e.lookUp projection name id w = .ok l w₁) :
    e.exposed projection name = .ok l.entity ∧
      l.found = w.store.get? (l.typeName, l.id) := by
  have hkept : e.Learns w w₁ := (e.keeps_lookUp projection name id).of_ok h
  simp only [lookUp, hpersistence, bind_eq_ok, Action.lift_eq_ok] at h
  obtain ⟨entity, _, ⟨hexposed, -⟩, typeName, _, -, own, _, -, found, w₂, hfound, h⟩ := h
  obtain ⟨hload, rfl⟩ := Action.lift_eq_ok.mp hfound
  cases h
  refine ⟨hexposed, ?_⟩
  rw [← hkept.store]
  exact (Except.ok.inj hload).symm

theorem mem_entities_of_exposed {projection name : String} {entity : Entity}
    (h : e.exposed projection name = .ok entity) : entity ∈ e.catalog.entities := by
  obtain ⟨found, hfound, h⟩ := except_bind_eq_ok.mp h
  split at h
  · cases h
    exact Catalog.mem_entities_of_entityIn hfound
  · cases h

theorem prepare_update_eq_ok (hpersistence : e.persistence = .inMemory newId)
    {projection name id : String} {record : Record} (hrecord : record.keys.Nodup) {job : Job}
    (h : e.prepare (.update projection name id record) w = .ok job w₁) :
    job.entity ∈ e.catalog.entities ∧ (∃ key, (key, job.target) ∈ w.store) ∧
      job.record.get? "id" = none := by
  simp only [prepare, bind_eq_ok] at h
  obtain ⟨asked, w₂, hasked, h⟩ := h
  obtain ⟨hexposed, hfound⟩ := lookUp_eq_ok hpersistence hasked
  cases hg : asked.found with
  | none => simp [hg] at h
  | some g =>
    simp only [hg, bind_eq_ok] at h
    obtain ⟨result, _, htranslated, target, _, htarget, h⟩ := h
    obtain ⟨rfl, rfl, -⟩ := translated_eq_ok htranslated
    cases h
    obtain rfl : g = target := by simpa using target_eq_ok htarget
    exact ⟨mem_entities_of_exposed hexposed,
      ⟨_, Table.mem_of_get? (hfound.symm.trans hg)⟩,
      Translation.get?_translate_of_none (Table.get?_remove_self hrecord)⟩

namespace GuardsIds

variable (hguards : e.GuardsIds newId)

include hguards

theorem prepare_fits (hw : w.Keyed e.registry) {c : Change} (hc : c.record.keys.Nodup) {job : Job}
    (h : e.prepare c w = .ok job w₁) : job.Fits e w₁ := by
  have hadds : e.AddsObjects w w₁ := (e.keeps_prepare c).of_ok h
  cases c with
  | create projection name record =>
    simp only [prepare, bind_eq_ok, Action.lift_eq_ok] at h
    obtain ⟨entity, w₂, ⟨hexposed, hw₂⟩, result, w₃, htranslated, target, _, htarget, h⟩ := h
    obtain ⟨hw₃, -, -⟩ := translated_eq_ok htranslated
    rw [hw₃, hw₂] at htarget
    cases h
    obtain ⟨typeName, type, -, htype, rfl, hheap⟩ :=
      exists_type_of_instantiate (instantiate_of_target htarget)
    have hnew : w₁.heap.get w.heap.length = type.create := by simp [Heap.get, hheap]
    refine ⟨mem_entities_of_exposed hexposed, by simp [hheap], ?_, fun key hkey => ?_⟩
    · rw [hnew]
      exact ⟨typeName, type, htype, rfl⟩
    · -- The new object is not stored yet.
      rw [hadds.store] at hkey
      exact absurd (hw key _ hkey).lt (Nat.lt_irrefl _)
  | update projection name id record =>
    -- The object is stored, so it is one that bears its key.
    obtain ⟨hentity, ⟨key, hkey⟩, hid⟩ := prepare_update_eq_ok hguards.persistence hc h
    have hbears := (hw.of_keepsAllIds hadds.keepsAllIds) key _ (hadds.store ▸ hkey)
    exact ⟨hentity, hbears.lt, hbears.made, fun _ _ => hid⟩

theorem keeps_writeEntry {entity : Entity} (hentity : entity ∈ e.catalog.entities) {f : Field}
    (hf : f ∈ entity.fields) (record : Record) (h : Handle) :
    Keeps (World.KeepsIds e.registry (record.Loosens h)) (e.writeEntry record h f) := by
  have hid := hguards.entities entity hentity f hf
  have hlast {path : String} (hpath : path = "id") :
      (Text.pieces '.' path).getLast? = some "id" := by
    rw [hpath]
    decide
  refine keeps_writeEntry_of (fun _ _ hlearns => hlearns.keepsIds) (fun hv _ value => ?_)
    fun _ entry hentry => (hguards.writers entry hentry h record f).mono fun _ _ h => h.keepsIds
  refine .changeHeap (fun w heap hset => ⟨rfl, ?_⟩) (refl_of _)
  refine (Heap.KeepsIds.setPath hguards.types (fun hends => (hid hends).2.2) hset).mono ?_
  -- The path `id` is that of the field `id`, which the record has.
  rintro g ⟨rfl, hproperty⟩
  exact ⟨rfl, (hid (hlast hproperty)).2.1 ▸ hv⟩

theorem keeps_write {job : Job} (hentity : job.entity ∈ e.catalog.entities) :
    Keeps (World.KeepsIds e.registry (job.record.Loosens job.target)) (e.write job) :=
  keeps_writeOnto_of (fun _ hf => hguards.keeps_writeEntry hentity hf _ _)
    fun audit haudit => (hguards.audit audit haudit _ _).mono fun _ _ h => h.keepsIds

theorem after_finish_keeps (job : Job) (w : World) :
    (w.save newId job.target).KeepsAllIds e.registry (after (e.finish job) w) := by
  unfold finish
  rw [hguards.persistence]
  exact (keeps_bindDeferrals_of hguards.bind _ _).bind (fun _ => e.keeps_shown _ _) _

/-- Up to the last phase the same is stored, whatever fails; and an updated object is then stored
under the key that it has been found under. -/
theorem run_keyed (hw : w.Keyed e.registry) {c : Change} (hc : c.record.keys.Nodup) :
    (after (e.run c) w).Keyed e.registry ∧
      (c.IsUpdate → (after (e.run c) w).store.keys = w.store.keys) := by
  rcases e.after_run_cases c w with ⟨f, hprepare⟩ | ⟨job, w₁, hprepare, hwrite⟩
  · have hadds := (e.keeps_prepare c).of_error hprepare
    exact ⟨hw.of_keepsAllIds hadds.keepsAllIds, fun _ => by rw [hadds.store]⟩
  · have hadds := (e.keeps_prepare c).of_ok hprepare
    have hw₁ := hw.of_keepsAllIds hadds.keepsAllIds
    have hfits := hguards.prepare_fits hw hc hprepare
    have hwrites := hguards.keeps_write hfits.entity
    -- Only the object of the job may get another id, and not even that if it is stored.
    have hfixed : ∀ key g, (key, g) ∈ w₁.store → ¬ job.record.Loosens job.target g := by
      rintro key g hkey ⟨rfl, hid⟩
      exact hid (hfits.idless key hkey)
    rcases hwrite with ⟨f, hwrite⟩ | ⟨w₂, hwrite, hfinish⟩
    · have hkeeps := hwrites.of_error hwrite
      exact ⟨hw₁.of_keepsIds hkeeps hfixed, fun _ => by rw [hkeeps.store, hadds.store]⟩
    · have hkeeps := hwrites.of_ok hwrite
      have hw₂ := hw₁.of_keepsIds hkeeps hfixed
      have hmade : e.registry.Makes (w₂.heap.get job.target).kind := by
        rw [hkeeps.heap.kind _ hfits.lt hfits.made]
        exact hfits.made
      have hsaved := hw₂.save hguards.types hguards.newIds
        (Nat.lt_of_lt_of_le hfits.lt hkeeps.heap.length) hmade
      have hfinished := hguards.after_finish_keeps job w₂
      rw [hfinish]
      refine ⟨hsaved.of_keepsAllIds hfinished, fun hupdate => ?_⟩
      cases c with
      | create => exact hupdate.elim
      | update projection name id record =>
        obtain ⟨-, ⟨key, hkey⟩, -⟩ := prepare_update_eq_ok hguards.persistence hc hprepare
        have hstore : w₂.store = w.store := hkeeps.store.trans hadds.store
        rw [hfinished.store, hw₂.keys_save (hstore ▸ hkey), hstore]

theorem perform_keyed (hw : w.Keyed e.registry) {c : Call} (hc : c.WellFormed) :
    (after (e.perform c) w).Keyed e.registry := by
  cases c with
  | get projection name id =>
    rw [perform, after_map]
    have hlearns : e.Learns w _ := e.keeps_getRecord projection name id w
    exact hw.of_keepsAllIds hlearns.keepsIds
  | change c =>
    rw [perform, after_map]
    exact (hguards.run_keyed hw hc).1

theorem history_keyed {start : World} (hstart : start.Keyed e.registry) {calls : List Call}
    (hcalls : ∀ c ∈ calls, c.WellFormed) : (e.history start calls).Keyed e.registry := by
  induction calls generalizing start with
  | nil => exact hstart
  | cons c rest ih =>
    exact ih (hguards.perform_keyed hstart (hcalls c List.mem_cons_self))
      fun c' hc' => hcalls c' (List.mem_cons_of_mem _ hc')

end GuardsIds

end Engine

namespace Sample

/-- Of the sample types those whose objects have ids. -/
def shopRegistry : Registry where
  types := [product, category].map fun d => (d.name, d.entityType)
  tables := [product, category].map fun d => (d.table, d.name)

def shop : Engine := { engine with
  registry := shopRegistry
  tableTypes := .ofRegistry shopRegistry
  audit? := some (.stamps shopRegistry "system" moment) }

/-- A product is written with another id, and its category is written along with it; the last update
fails after its first field. -/
def orders : List Call := [
  .change (.create "sales" "Category" [("name", .text "Tools")]),
  .change (.create "sales" "Product" [("id", .text "X"), ("sku", .text "A100"),
    ("category", .text (numberedId 0))]),
  .change (.update "sales" "Product" "X" [("id", .text "Y"), ("sku", .text "B200"),
    ("categoryName", .text "Parts")]),
  .change (.update "sales" "Product" "X" [("sku", .text "C300"), ("price", .text "abc")]),
  .get "sales" "Product" "X"]

theorem shop_guardsIds : shop.GuardsIds numberedId := by
  have hr : shopRegistry.GuardsIds :=
    @Registry.guardsIds_of_definitions shopRegistry [product, category] rfl (by decide)
  refine ⟨rfl, numberedId_ne_empty, hr, by decide +kernel, nofun, ?_, ?_⟩
  · rintro audit ⟨⟩ h isNew
    exact Engine.keepsAllIds_stamps hr _ _ h isNew
  · exact fun table externalId id w => ⟨rfl, .refl w.heap⟩

end Sample

namespace Engine

end Engine

end Fieldwise
