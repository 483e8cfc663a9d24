import Fieldwise.Proofs.Service.Creation
import Fieldwise.Proofs.Service.Faults
import Fieldwise.Proofs.Service.Keys

/-!
What is got after an object has been written. The record that the writing call shows is made last,
so all depends on whether the id of the call still leads to the object: through the bindings, the
type of the table and the key under which the object has been stored.
-/

namespace Fieldwise

theorem Heap.KeepsIds.setPath_of_kinds {r : Registry}
    (hkinds : ∀ property o o', r.Makes o.kind → r.Turns property o o' → o'.kind = o.kind)
    {heap heap' : Heap} {h : Handle} {path : String} {v : PropertyValue}
    (hset : r.setPath heap h path v = .ok heap') : heap.KeepsIds r (fun _ => True) heap' := by
  rcases Registry.setPath_eq_ok hset with rfl | ⟨g, property, -, hset⟩
  · exact .refl _
  · obtain ⟨o, hturns, rfl⟩ := Registry.setProperty_eq_ok hset
    exact .put (fun hmade => hkinds property _ o hmade hturns) fun _ hfixed => absurd trivial hfixed

theorem World.get?_of_unknownId? {w : World} {table x : String} {record : Record}
    (h : w.unknownId? table record = some x) : w.bindings.get? (table, x) = none := by
  unfold unknownId? at h
  split at h
  · split at h
    · cases h
    · next hunknown =>
      obtain rfl := Option.some.inj h
      simpa using (not_or.mp hunknown).2
  · cases h

theorem World.save_eq_put {w : World} {h : Handle} (hh : h < w.heap.length)
    (htakes : ∀ id, ((w.heap.get h).withId id).id? = some id) (newId : Nat → String) :
    ∃ id, ((w.save newId h).heap.get h).id? = some id ∧
      (w.save newId h).store = w.store.put ((w.heap.get h).typeName, id) h := by
  unfold save
  dsimp only
  split
  · next id hid => exact ⟨id, (Option.filter_eq_some_iff.mp hid).1, rfl⟩
  · refine ⟨newId w.issued, ?_, rfl⟩
    rw [Heap.get_put_self hh]
    exact htakes _

/-- The same is stored, and objects stay of their kind, whatever becomes of their ids. -/
abbrev World.KeepsKinds (r : Registry) : World → World → Prop := KeepsIds r fun _ => True

namespace Engine

variable {e : Engine} {w w' : World}

/-- Custom readers look at nothing that getting a record changes. -/
def ReadsAlike (e : Engine) (w w' : World) : Prop :=
  w'.heap = w.heap ∧ ∀ entry ∈ e.custom.readers, entry.2 w' = entry.2 w

theorem readBy_alike (halike : e.ReadsAlike w w') (nested : Handle → Entity → Reading Record)
    (h : Handle) (f : Field) (s : Strategy) :
    e.readBy nested w' h f s = e.readBy nested w h f s := by
  obtain ⟨hheap, hreaders⟩ := halike
  cases s with
  | custom =>
    simp only [readBy, readCustom]
    cases hread : e.custom.reader? (f.qualifier.getD "") with
    | none => rfl
    | some read =>
      have hread : read w' = read w := hreaders _ (Table.mem_of_get? hread)
      simp only [hread]
  | reference =>
    have hrelated : e.readRelated nested w' f = e.readRelated nested w f := by
      funext g
      simp only [readRelated, hheap]
    have hitem : e.readItem nested w' f = e.readItem nested w f := by
      funext item
      cases item <;> simp only [readItem, hrelated]
    simp only [readBy, readReference, hheap, hrelated, hitem]
  | _ => simp only [readBy, readDirect, readPath, hheap]

/-- An engine over types whose objects bear the name of their type, take the ids that they are
given and stay of their kind, whoever writes onto them. Custom readers go by what calls of the
service can change, and not by what is merely remembered of the types of tables. -/
structure FindsAgain (e : Engine) (newId : Nat → String) : Prop extends e.InMemory newId where
  named : ∀ name type, e.registry.type? name = some type → type.create.typeName = name
  takesId : ∀ kind, e.registry.Makes kind → ∀ id cells, kind.id? (kind.setId id cells) = some id
  keepsKind : ∀ property o o', e.registry.Makes o.kind → e.registry.Turns property o o' →
    o'.kind = o.kind
  writersKeepKinds : ∀ entry ∈ e.custom.writers, ∀ h record f,
    Keeps (World.KeepsKinds e.registry) (entry.2 h record f)
  auditKeepsKinds : ∀ audit, e.audit? = some audit → ∀ h isNew,
    Keeps (World.KeepsKinds e.registry) (audit h isNew)
  readers : ∀ entry ∈ e.custom.readers, ∀ w w', e.Learns w w' → entry.2 w' = entry.2 w

namespace FindsAgain

variable {newId : Nat → String} (hfinds : e.FindsAgain newId)
include hfinds

theorem getRecord_of_known {projection name id : String} {l : Lookup} {h : Handle}
    {record : Record} (hknown : e.known w projection name id = .ok l) (hfound : l.found = some h)
    (hread : e.toRecord w h l.entity = .ok record) :
    ∃ w', e.getRecord projection name id w = .ok (some record) w' := by
  have hanswers := hfinds.toInMemory.answers_lookUp w projection name id
  rw [hknown] at hanswers
  obtain ⟨w', hlearns, hlookUp⟩ := hanswers
  have halike : e.ReadsAlike w w' :=
    ⟨hlearns.heap, fun entry hentry => hfinds.readers entry hentry w w' hlearns⟩
  have hread' : e.toRecord w' h l.entity = .ok record :=
    (toRecord_congr (readBy_alike halike) halike.1 h _).trans hread
  refine ⟨w', ?_⟩
  rw [getRecord, bind_apply, hlookUp]
  simp only [hfound, map_apply, shown, bind_apply, get_apply, hread', pure_apply]

/-- An updated object may be stored under another key as well, but it can still be found under the
one that it was found under. -/
theorem getRecord_of_updateRecord {projection name id : String} {record shown : Record}
    (h : e.updateRecord projection name id record w = .ok shown w') :
    ∃ w'', e.getRecord projection name id w' = .ok (some shown) w'' := by
  have hmemory := hfinds.toInMemory
  have hrun : e.run (.update projection name id record) w = .ok shown w' := h
  obtain ⟨job, w₁, w₂, hprepare, hwrite, hfinish⟩ := run_eq_ok.mp hrun
  obtain ⟨l, _, hknown, hfound, -, hentity, -, -, -, htranslation⟩ :=
    hmemory.prepare_update_eq_known hprepare
  have hchanges := hmemory.changesObjects_of_phases hprepare hwrite
  have hnone : job.translation.deferrals =
      (none : Option String).toList.map fun s => ⟨job.entity.table, s⟩ := by
    rw [htranslation]
    rfl
  have hfinished := hmemory.finish_eq_ok hnone hfinish
  obtain ⟨key, heap, issued, -, hsave⟩ := w₂.save_eq newId job.target
  obtain ⟨entity, typeName, hexposed, htype, rfl⟩ := known_eq_ok.mp hknown
  dsimp only at hfound hentity
  have hbindings : w'.bindings = w.bindings := hfinished.bindings.trans hchanges.bindings
  have htype' : e.typeNow w' entity.table = .ok typeName := by
    rw [hfinished.types, hchanges.types, htype]
  have hstored : w'.store.get? (typeName, (w'.bindings.get? (entity.table, id)).getD id) =
      some job.target := by
    rw [hbindings, hfinished.store, hsave]
    dsimp only
    by_cases hkey : (typeName, (w.bindings.get? (entity.table, id)).getD id) = key
    · rw [hkey, Table.get?_put_self]
    · rw [Table.get?_put_of_ne hkey, hchanges.store, hfound]
  exact hfinds.getRecord_of_known (known_eq_ok.mpr ⟨entity, typeName, hexposed, htype', rfl⟩)
    hstored (hentity ▸ hfinished.shown)

theorem keeps_write (job : Job) : Keeps (World.KeepsKinds e.registry) (e.write job) := by
  refine keeps_writeOnto_of (fun f _ => ?_)
    fun audit haudit => hfinds.auditKeepsKinds audit haudit _ _
  refine keeps_writeEntry_of (fun _ _ hlearns => hlearns.keepsIds) (fun _ _ value => ?_)
    fun _ entry hentry => hfinds.writersKeepKinds entry hentry _ _ f
  exact .changeHeap (fun w heap hset => ⟨rfl, .setPath_of_kinds hfinds.keepsKind hset⟩) (refl_of _)

/-- A new object is stored under the type of its table and its id, to which the unknown id in the
record leads from then on. -/
theorem getRecord_of_createRecord {projection name x : String} {entity : Entity}
    {record shown : Record} (hexposed : e.exposed projection name = .ok entity)
    (hunknown : w.unknownId? entity.table record = some x)
    (h : e.createRecord projection name record w = .ok shown w') :
    ∃ w'', e.getRecord projection name x w' = .ok (some shown) w'' := by
  have hmemory := hfinds.toInMemory
  have hrun : e.run (.create projection name record) w = .ok shown w' := h
  obtain ⟨job, w₁, w₂, hprepare, hwrite, hfinish⟩ := run_eq_ok.mp hrun
  obtain ⟨typeName, type, hexposed', hnow, htype, htarget, hheap, -, htranslation, herror, -⟩ :=
    e.prepare_create_eq_new hprepare
  obtain rfl : entity = job.entity := Except.ok.inj (hexposed.symm.trans hexposed')
  have hdeferrals := Translation.deferrals_translate (htranslation ▸ herror)
  rw [← htranslation, Translation.unknownOwnId?_keptInWorld hmemory.toKeptInWorld] at hdeferrals
  have hkinds := (hfinds.keeps_write job).of_ok hwrite
  have hchanges := hmemory.changesObjects_of_phases hprepare hwrite
  have hnew : w₁.heap.get job.target = type.create := by simp [Heap.get, hheap, htarget]
  have hlt : job.target < w₁.heap.length := by simp [hheap, htarget]
  have hmade : e.registry.Makes (w₁.heap.get job.target).kind :=
    hnew ▸ ⟨typeName, type, htype, rfl⟩
  have hkind : (w₂.heap.get job.target).kind = type.create.kind := by
    rw [hkinds.heap.kind _ hlt hmade, hnew]
  have hfinished := hmemory.finish_eq_ok hdeferrals hfinish
  have htakes (id : String) : ((w₂.heap.get job.target).withId id).id? = some id := by
    change (w₂.heap.get job.target).kind.id? ((w₂.heap.get job.target).kind.setId id _) = _
    rw [hkind]
    exact hfinds.takesId _ (hnew ▸ hmade) id _
  obtain ⟨own, hown, hsaved⟩ :=
    World.save_eq_put (Nat.lt_of_lt_of_le hlt hkinds.heap.length) htakes newId
  have hname : (w₂.heap.get job.target).typeName = typeName := by
    rw [BusinessObject.typeName, hkind]
    exact hfinds.named typeName type htype
  have htype' : e.typeNow w' job.entity.table = .ok typeName := by
    rw [hfinished.types, hchanges.types, hnow]
  -- The id in the record is bound to the own one, unless it is that very id.
  have hleads : (w'.bindings.get? (job.entity.table, x)).getD x = own := by
    have hbindings := hfinished.bindings
    rw [hfinished.heap, hown, hunknown, hchanges.bindings, rebound] at hbindings
    rw [hbindings]
    split
    · next hsame => rw [World.get?_of_unknownId? hunknown, Option.getD_none, hsame]
    · rw [Table.get?_put_self, Option.getD_some]
  have hstored : w'.store.get? (typeName, (w'.bindings.get? (job.entity.table, x)).getD x) =
      some job.target := by
    rw [hleads, hfinished.store, hsaved, hname, Table.get?_put_self]
  exact hfinds.getRecord_of_known (known_eq_ok.mpr ⟨job.entity, typeName, hexposed, htype', rfl⟩)
    hstored hfinished.shown

end FindsAgain

/-- In whatever world, what a successful update shows is then got by the id of the update, and what
a successful creation shows is then got by the id in the record, if that was not known: whichever id
the object has been given, by its fields or in the end by storing it. -/
theorem getRecord_of_written (e : Engine) (newId : Nat → String) (w : World)
    (hfinds : e.FindsAgain newId) :
    (∀ projection name id record shown w',
      e.updateRecord projection name id record w = .ok shown w' →
      ∃ w'', e.getRecord projection name id w' = .ok (some shown) w'') ∧
    ∀ projection name record entity x shown w', e.exposed projection name = .ok entity →
      w.unknownId? entity.table record = some x →
      e.createRecord projection name record w = .ok shown w' →
      ∃ w'', e.getRecord projection name x w' = .ok (some shown) w'' :=
  ⟨fun _ _ _ _ _ _ h => hfinds.getRecord_of_updateRecord h,
    fun _ _ _ _ _ _ _ hexposed hunknown h =>
      hfinds.getRecord_of_createRecord hexposed hunknown h⟩

end Engine

theorem Registry.typeName_create_of_definitions {r : Registry} {ds : List TypeDefinition}
    (hr : r.types = ds.map fun d => (d.name, d.entityType)) {name : String} {type : EntityType}
    (htype : r.type? name = some type) : type.create.typeName = name := by
  obtain ⟨d, -, hpair⟩ := List.mem_map.mp (hr ▸ Table.mem_of_get? htype)
  obtain ⟨rfl, rfl⟩ := Prod.mk.inj hpair
  rfl

theorem Sample.shop_findsAgain : shop.FindsAgain numberedId where
  toInMemory := .of_stamps rfl rfl rfl rfl
  named _ _ htype := Registry.typeName_create_of_definitions rfl htype
  takesId := shop_guardsIds.types.takesId
  keepsKind := shop_guardsIds.types.keepsKind
  writersKeepKinds _ hentry := nomatch hentry
  auditKeepsKinds audit haudit h isNew :=
    (shop_guardsIds.audit audit haudit h isNew).mono fun _ _ hkeeps => hkeeps.keepsIds
  readers _ hentry := nomatch hentry

namespace Engine

set_option maxRecDepth 4000 in
theorem shop_getRecord_of_written :
    ∃ shown w' w₁, Sample.shop.createRecord "sales" "Product"
        [("id", .text "X"), ("sku", .text "A100")] World.empty = .ok shown w' ∧
      Sample.shop.getRecord "sales" "Product" "X" w' = .ok (some shown) w₁ ∧
    ∃ shown' w'' w₂, Sample.shop.updateRecord "sales" "Product" "X" [("sku", .text "B200")] w' =
        .ok shown' w'' ∧
      Sample.shop.getRecord "sales" "Product" "X" w'' = .ok (some shown') w₂ := by
  obtain ⟨shown, hcreated⟩ : ∃ shown, Sample.shop.createRecord "sales" "Product"
      [("id", .text "X"), ("sku", .text "A100")] World.empty = .ok shown _ :=
    exists_eq_ok_of_value? (by decide +kernel)
  obtain ⟨w₁, hgot⟩ := (getRecord_of_written Sample.shop numberedId World.empty
    Sample.shop_findsAgain).2 "sales" "Product" _ Sample.productEntity "X" shown _
    (by decide +kernel) (by decide +kernel) hcreated
  obtain ⟨shown', hupdated⟩ : ∃ shown', Sample.shop.updateRecord "sales" "Product" "X"
      [("sku", .text "B200")] (after (Sample.shop.createRecord "sales" "Product"
        [("id", .text "X"), ("sku", .text "A100")]) World.empty) = .ok shown' _ :=
    exists_eq_ok_of_value? (by decide +kernel)
  obtain ⟨w₂, hgot'⟩ := (getRecord_of_written Sample.shop numberedId _
    Sample.shop_findsAgain).1 "sales" "Product" "X" _ shown' _ hupdated
  exact ⟨shown, _, w₁, hcreated, hgot, shown', _, w₂, hupdated, hgot'⟩

end Engine

namespace Sample

/-- The object that gets the first id cannot be loaded. -/
def failing : Engine := archive.withFaults { load := [numberedId 0] }

end Sample

namespace Engine

set_option maxRecDepth 4000 in
/-- With a custom writer that binds the id anew, an updated object is not got by it; and where
loading can fail, a created one is not either. -/
theorem written_not_got :
    (Sample.rebinding.KeptInWorld numberedId ∧
      Sample.rebinding.tableTypes = .ofRegistry Sample.rebinding.registry ∧
      Sample.rebinding.registry.GuardsIds ∧ ∀ name type,
        Sample.rebinding.registry.type? name = some type → type.create.typeName = name) ∧
    (∃ shown w w', Sample.rebinding.Reached World.empty Sample.archived ∧
      Sample.rebinding.updateRecord "docs" "Doc" "X" [("calc", .boolean true)] Sample.archived =
        .ok shown w ∧
      Sample.rebinding.getRecord "docs" "Doc" "X" w = .ok none w') ∧
    ∃ shown w failure w',
      World.empty.unknownId? Sample.document.table [("id", .text "X")] = some "X" ∧
      Sample.failing.createRecord "docs" "Doc" [("id", .text "X")] World.empty = .ok shown w ∧
      Sample.failing.getRecord "docs" "Doc" "X" w = .error failure w' := by
  refine ⟨⟨⟨rfl, rfl⟩, rfl, Registry.guardsIds_of_definitions rfl (by decide),
    fun _ _ htype => Registry.typeName_create_of_definitions rfl htype⟩, ?_, ?_⟩
  · obtain ⟨shown, hupdated⟩ : ∃ shown, Sample.rebinding.updateRecord "docs" "Doc" "X"
        [("calc", .boolean true)] Sample.archived = .ok shown _ :=
      exists_eq_ok_of_value? (by decide +kernel)
    obtain ⟨found, hgot, hnone⟩ := Option.map_eq_some_iff.mp (by decide +kernel :
      (value? (Sample.rebinding.getRecord "docs" "Doc" "X") (after
        (Sample.rebinding.updateRecord "docs" "Doc" "X" [("calc", .boolean true)])
        Sample.archived)).map Option.isSome = some false)
    obtain rfl : found = none := by simpa using hnone
    exact ⟨shown, _, _, .call _ .start, hupdated, eq_ok_of_value? hgot⟩
  · obtain ⟨shown, hcreated⟩ : ∃ shown, Sample.failing.createRecord "docs" "Doc"
        [("id", .text "X")] World.empty = .ok shown _ :=
      exists_eq_ok_of_value? (by decide +kernel)
    exact ⟨shown, _, _, _, by decide +kernel, hcreated, eq_error_of_error?
      (e := .internal s!"load of Doc {numberedId 0} failed") (by decide +kernel)⟩

end Engine

end Fieldwise
