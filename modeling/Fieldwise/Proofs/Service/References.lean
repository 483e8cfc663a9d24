import Fieldwise.Proofs.Registry.References
import Fieldwise.Proofs.Service.Creation
import Fieldwise.Proofs.Service.Keys

/-!
Which objects written properties refer to. An id in a record is looked up before anything is
written, and what it is bound to is looked up again when the property is written. So the property
refers to what the second look-up leads to, which may be bound itself; and whatever else a call
writes leaves the property.
-/

namespace Fieldwise

/-- Each field has a name and a property of its own, properties are those of the object itself, and
no field is written by others. -/
structure Entity.Plain (entity : Entity) : Prop where
  names : (entity.fields.map (·.name)).Nodup
  properties : (entity.fields.map (·.property)).Nodup
  single : ∀ f ∈ entity.fields, Text.pieces '.' f.property = [f.property]
  noCustom : ∀ f ∈ entity.fields, f.kind ≠ .custom

/-- The fields before and after a field are fields as well, and write other properties. -/
theorem Entity.Plain.exists_around {entity : Entity} (hplain : entity.Plain) {f : Field}
    (hf : f ∈ entity.fields) : ∃ before rest, entity.fields = before ++ f :: rest ∧
      ∀ g ∈ before ++ rest, g ∈ entity.fields ∧ f.property ≠ g.property := by
  obtain ⟨before, rest, hsplit⟩ := List.append_of_mem hf
  have hproperties := hplain.properties
  rw [hsplit, List.map_append, List.map_cons, List.nodup_append] at hproperties
  obtain ⟨-, hrest, hbefore⟩ := hproperties
  refine ⟨before, rest, hsplit, fun g hg => ?_⟩
  rw [hsplit, List.mem_append, List.mem_cons]
  rcases List.mem_append.mp hg with hg | hg
  · exact ⟨.inl hg, (hbefore _ (List.mem_map_of_mem hg) _ List.mem_cons_self).symm⟩
  · refine ⟨.inr (.inr hg), fun heq => ?_⟩
    exact (List.nodup_cons.mp hrest).1 (heq ▸ List.mem_map_of_mem hg)

/-- No object is gone or of another kind, and the property of each has its value. -/
structure World.KeepsProperty (r : Registry) (property : String) (w w' : World) : Prop where
  length : w.heap.length ≤ w'.heap.length
  kind : ∀ h < w.heap.length, (w'.heap.get h).kind = (w.heap.get h).kind
  value : ∀ h < w.heap.length,
    r.valueOf (w'.heap.get h) property = r.valueOf (w.heap.get h) property

namespace World

variable {r : Registry} {property : String} {w w' : World} {newId : Nat → String}

instance : Std.Refl (KeepsProperty r property) := ⟨fun _ => ⟨Nat.le_refl _, fun _ _ => rfl,
  fun _ _ => rfl⟩⟩

instance : IsTrans World (KeepsProperty r property) where
  trans w w' w'' h h' := by
    have hlt {g : Handle} (hg : g < w.heap.length) : g < w'.heap.length :=
      Nat.lt_of_lt_of_le hg h.length
    exact ⟨Nat.le_trans h.length h'.length,
      fun g hg => (h'.kind g (hlt hg)).trans (h.kind g hg),
      fun g hg => (h'.value g (hlt hg)).trans (h.value g hg)⟩

theorem KeepsProperty.of_heap (h : w'.heap = w.heap) : w.KeepsProperty r property w' := by
  rw [show w' = { w' with heap := w.heap } by rw [← h]]
  exact ⟨Nat.le_refl _, fun _ _ => rfl, fun _ _ => rfl⟩

theorem valueOf_save (hr : r.KeepsReferences) {h : Handle} (hh : h < w.heap.length)
    (hmade : r.Makes (w.heap.get h).kind)
    (hreference : r.IsReference (w.heap.get h).typeName property) :
    r.valueOf ((w.save newId h).heap.get h) property = r.valueOf (w.heap.get h) property := by
  unfold save
  dsimp only
  split
  · rfl
  · rw [Heap.get_put_self hh]
    exact hr.withId property _ _ hmade hreference

end World

theorem Registry.setPath_of_single {r : Registry} {heap : Heap} {h : Handle} {path : String}
    {v : PropertyValue} (hsingle : Text.pieces '.' path = [path]) :
    r.setPath heap h path v = r.setProperty heap h path v := by
  have hpieces := Text.pieces_eq_of_splitAtLast? '.' path
  unfold setPath
  cases hsplit : Text.splitAtLast? '.' path with
  | none => rfl
  | some split =>
    obtain ⟨way, property⟩ := split
    rw [hsplit, hsingle, List.singleton_eq_append_iff] at hpieces
    simp [Text.pieces_ne_nil] at hpieces

namespace Engine

variable {e : Engine} {w w' : World} {newId : Nat → String}

theorem keepsProperty_setProperty {r : Registry} (hr : r.KeepsReferences) {property other : String}
    (hne : property ≠ other) (h : Handle) (v : PropertyValue) :
    Keeps (World.KeepsProperty r property)
      (Action.changeHeap fun heap => r.setProperty heap h other v) := by
  refine .changeHeap (fun w heap hset => ?_) (refl_of _)
  obtain ⟨o, hturns, rfl⟩ := Registry.setProperty_eq_ok hset
  refine ⟨Nat.le_of_eq (Heap.length_put ..).symm, ?_, ?_⟩
  · exact Heap.forall_get_put (P := fun g o' => o'.kind = (w.heap.get g).kind)
      (hr.keepsKind other _ o hturns) fun _ _ => rfl
  · exact Heap.forall_get_put
      (P := fun g o' => r.valueOf o' property = r.valueOf (w.heap.get g) property)
      (hr.keepsOthers other _ o hturns property hne) fun _ _ => rfl

theorem keepsProperty_stamps {r : Registry} (hr : r.KeepsReferences) {property : String}
    (hproperty : property ∉ stampedProperties) (user : String) (now : Calendar.DateTime)
    (h : Handle) (isNew : Bool) :
    Keeps (World.KeepsProperty r property) (Audit.stamps r user now h isNew) :=
  keeps_stamps_of (fun _ hother v => keepsProperty_setProperty hr
    (ne_of_mem_of_not_mem hother hproperty).symm h v) user now isNew

/-- The entity of a call that writes, the place that it writes to and the object there before. -/
def subject? (e : Engine) (w : World) : Change → Option (Entity × Handle × BusinessObject)
  | .create projection name _ => do
    let entity ← (e.exposed projection name).toOption
    let typeName ← (e.typeNow w entity.table).toOption
    let type ← e.registry.type? typeName
    pure (entity, w.heap.length, type.create)
  | .update projection name id _ => do
    let l ← (e.known w projection name id).toOption
    let h ← l.found
    pure (l.entity, h, w.heap.get h)

/-- A reference field has an id in a record that is bound, as an id of the related table, to `y`. -/
structure Binds (e : Engine) (w : World) (record : Record) (entity : Entity) (f : Field)
    (related : Entity) (y : String) : Prop where
  mem : f ∈ entity.fields
  kind : f.kind = .reference
  /-- An entry `id` is the id of the record itself as well. -/
  name : f.name ≠ "id"
  leads : e.related? f = some related
  bound : ∃ v x, record.get? f.name = some v ∧ v.externalId? = some x ∧
    w.bindings.get? (related.table, x) = some y

/-- What is stored under the id that an id of a table stands for. -/
def stored? (w : World) (table typeName id : String) : Option Handle :=
  w.store.get? (typeName, (w.bindings.get? (table, id)).getD id)

namespace KeptInWorld

variable (hkept : e.KeptInWorld newId)

include hkept

theorem resolve_eq_ok {table typeName : String} {f : Field} {v : Json} {found : Option Handle}
    (h : e.resolve table typeName f v w = .ok found w') :
    ∃ id, v.referenceId? = some id ∧ found = stored? w table typeName id := by
  unfold resolve at h
  cases hid : v.referenceId? with
  | none => simp [hid] at h
  | some id =>
    simp only [hid, bind_eq_ok] at h
    obtain ⟨own, w₁, hown, hload⟩ := h
    obtain ⟨heq, hlearns⟩ := (hkept.answers_internalId table id w).of_ok hown
    obtain ⟨hfound, -⟩ := (hkept.answers_load typeName own w₁).of_ok hload
    rw [← Except.ok.inj heq, hlearns.store] at hfound
    exact ⟨id, rfl, (Except.ok.inj hfound).symm⟩

/-- A single id that has been replaced is looked up again. -/
theorem assigned_eq_ok {f : Field} {related : Entity} {v : Json} {x y typeName : String}
    {u? : Option PropertyValue} (hrelated : e.related? f = some related)
    (hx : v.externalId? = some x) (htype : e.typeNow w related.table = .ok typeName)
    (h : e.assigned f (v.withId y) w = .ok u? w') :
    u? = (stored? w related.table typeName (Text.trim y)).map .reference := by
  have hassigned : e.assigned f (v.withId y) = (do
      let typeName ← e.typeOfTable related.table
      let found ← e.resolve related.table typeName f (v.withId y)
      pure (found.map .reference)) := by
    unfold assigned
    rw [hrelated]
    cases v with
    | text s => rfl
    | object fields => rfl
    | _ => cases hx
  rw [hassigned] at h
  simp only [bind_eq_ok] at h
  obtain ⟨typeName', w₁, htypeName, found, w₂, hresolve, h⟩ := h
  obtain ⟨hknown, hlearns⟩ := (e.answers_typeOfTable w related.table).of_ok htypeName
  obtain rfl := Except.ok.inj (htype.symm.trans hknown)
  obtain ⟨id, hid, rfl⟩ := hkept.resolve_eq_ok hresolve
  cases h
  rw [Json.referenceId?_withId hx, Json.referenceId?] at hid
  split at hid
  · cases hid
  · obtain rfl := Option.some.inj hid
    rw [stored?, stored?, hlearns.store, hlearns.bindings]

end KeptInWorld

/-- Where no field is written by others, objects are all that writing changes. -/
theorem keeps_writeEntry_of_plain {entity : Entity} (hplain : entity.Plain) {f : Field}
    (hf : f ∈ entity.fields) (record : Record) (h : Handle) :
    Keeps e.ChangesObjects (e.writeEntry record h f) :=
  keeps_writeEntry_of (fun _ _ hlearns => hlearns.toChangesObjects)
    (fun _ _ value => keeps_assign h f.property value)
    fun hcustom => absurd hcustom (hplain.noCustom f hf)

section

variable (hr : e.registry.KeepsReferences) {entity related : Entity} {f : Field} {record : Record}
  {h : Handle}

include hr

theorem keepsProperty_writeEntry (hplain : entity.Plain) {property : String}
    (hf : f ∈ entity.fields) (hne : property ≠ f.property) (record : Record) (h : Handle) :
    Keeps (World.KeepsProperty e.registry property) (e.writeEntry record h f) := by
  refine keeps_writeEntry_of (fun _ _ hlearns => .of_heap hlearns.heap) (fun _ _ value => ?_)
    fun hcustom => absurd hcustom (hplain.noCustom f hf)
  simp only [Registry.setPath_of_single (hplain.single f hf)]
  exact keepsProperty_setProperty hr hne h value

variable (hkept : e.KeptInWorld newId) {v : Json} {x y typeName : String}

include hkept

/-- The property comes to refer to what is stored, and stays as it is if nothing is. -/
theorem valueOf_writeEntry (hh : h < w.heap.length) (hkind : f.kind = .reference)
    (hsingle : Text.pieces '.' f.property = [f.property])
    (hreference : e.registry.IsReference (w.heap.get h).typeName f.property)
    (hrelated : e.related? f = some related) (hv : record.get? f.name = some (v.withId y))
    (hx : v.externalId? = some x) (htype : e.typeNow w related.table = .ok typeName)
    (hwrite : e.writeEntry record h f w = .ok () w') :
    (w'.heap.get h).kind = (w.heap.get h).kind ∧ e.registry.valueOf (w'.heap.get h) f.property =
      match stored? w related.table typeName (Text.trim y) with
      | some g => .ok (.reference g)
      | none => e.registry.valueOf (w.heap.get h) f.property := by
  have hentry : e.writeEntry record h f = e.writeReference h f (v.withId y) := by
    unfold writeEntry
    rw [hv, hkind]
    rfl
  rw [hentry, writeReference_eq, bind_eq_ok] at hwrite
  obtain ⟨u?, w₁, hassigned, hwrite⟩ := hwrite
  have hheap : w₁.heap = w.heap := ((keeps_assigned f _).of_ok hassigned).heap
  obtain rfl := hkept.assigned_eq_ok hrelated hx htype hassigned
  cases hstored : stored? w related.table typeName (Text.trim y) with
  | none =>
    rw [hstored] at hwrite
    cases hwrite
    simp [hheap]
  | some g =>
    rw [hstored] at hwrite
    simp only [Option.map_some, Action.changeHeap, Registry.setPath_of_single hsingle, hheap]
      at hwrite
    split at hwrite
    · next heap hset =>
      cases hwrite
      obtain ⟨a, ha, hset⟩ := except_bind_eq_ok.mp hset
      obtain ⟨o, ho, hset⟩ := except_bind_eq_ok.mp hset
      cases hset
      dsimp only
      rw [Heap.get_put_self hh]
      exact ⟨hr.keepsKind _ _ o ⟨a, _, ha, ho⟩, hr.takesReference _ _ o a g hreference ha ho⟩
    · cases hwrite

/-- The fields before and after it, and the audit, leave what a reference field has written. -/
theorem valueOf_writeOnto (haudit : ∀ audit, e.audit? = some audit → ∀ h isNew,
      Keeps (World.KeepsProperty e.registry f.property) (audit h isNew))
    (hplain : entity.Plain) (hh : h < w.heap.length) (hf : f ∈ entity.fields)
    (hkind : f.kind = .reference)
    (hreference : e.registry.IsReference (w.heap.get h).typeName f.property)
    (hrelated : e.related? f = some related) (hv : record.get? f.name = some (v.withId y))
    (hx : v.externalId? = some x) (htype : e.typeNow w related.table = .ok typeName)
    {isNew : Bool} (hwrite : e.writeOnto record h isNew entity.fields w = .ok () w') :
    h < w'.heap.length ∧ (w'.heap.get h).kind = (w.heap.get h).kind ∧
      e.registry.valueOf (w'.heap.get h) f.property =
      match stored? w related.table typeName (Text.trim y) with
      | some g => .ok (.reference g)
      | none => e.registry.valueOf (w.heap.get h) f.property := by
  obtain ⟨before, rest, hsplit, haround⟩ := hplain.exists_around hf
  have hkeeps (g : Field) (hg : g ∈ before ++ rest) :
      Keeps (World.KeepsProperty e.registry f.property) (e.writeEntry record h g) :=
    keepsProperty_writeEntry hr hplain (haround g hg).1 (haround g hg).2 record h
  -- First the fields before, then the field itself, and at last the fields after with the audit.
  have hsteps : e.writeOnto record h isNew entity.fields = (do
      before.forM (e.writeEntry record h)
      e.writeEntry record h f
      e.writeOnto record h isNew rest) := by
    simp only [hsplit, writeOnto, forM_append_apply, forM_cons_apply, bind_assoc]
  simp only [hsteps, bind_eq_ok] at hwrite
  obtain ⟨_, w₁, hwrite₁, _, w₂, hwrite₂, hwrite₃⟩ := hwrite
  have hkeeps₁ : w.KeepsProperty e.registry f.property w₁ :=
    (Keeps.forM fun g hg => hkeeps g (List.mem_append_left _ hg)).of_ok hwrite₁
  have hchanges : e.ChangesObjects w w₁ := (Keeps.forM fun g hg =>
    keeps_writeEntry_of_plain hplain (haround g (List.mem_append_left _ hg)).1 record
      h).of_ok hwrite₁
  have hlt : h < w₁.heap.length := Nat.lt_of_lt_of_le hh hkeeps₁.length
  -- The object is of its type still, and what is looked up has not been changed.
  have hname : (w₁.heap.get h).typeName = (w.heap.get h).typeName :=
    congrArg ObjectKind.typeName (hkeeps₁.kind h hh)
  have hsame : stored? w₁ related.table typeName (Text.trim y) =
      stored? w related.table typeName (Text.trim y) := by
    rw [stored?, stored?, hchanges.store, hchanges.bindings]
  obtain ⟨hkind₂, hvalue₂⟩ := valueOf_writeEntry hr hkept hlt hkind (hplain.single f hf)
    (hname ▸ hreference) hrelated hv hx (hchanges.types ▸ htype) hwrite₂
  have hlt₂ : h < w₂.heap.length :=
    Nat.lt_of_lt_of_le hlt ((keeps_writeEntry_of_plain hplain hf record h).of_ok hwrite₂).length
  have hkeeps₃ : w₂.KeepsProperty e.registry f.property w' :=
    (keeps_writeOnto_of (fun g hg => hkeeps g (List.mem_append_right _ hg))
      fun audit hsome => haudit audit hsome h isNew).of_ok hwrite₃
  refine ⟨Nat.lt_of_lt_of_le hlt₂ hkeeps₃.length,
    ((hkeeps₃.kind h hlt₂).trans hkind₂).trans (hkeeps₁.kind h hh), ?_⟩
  rw [hkeeps₃.value h hlt₂, hvalue₂, hsame, hkeeps₁.value h hh]

end

namespace KeptInWorld

variable (hkept : e.KeptInWorld newId) {c : Change} {job : Job}

include hkept

theorem subject?_of_prepare (hw : w.Sound) (h : e.prepare c w = .ok job w') :
    e.subject? w c = some (job.entity, job.target, w'.heap.get job.target) := by
  cases c with
  | create projection name record =>
    obtain ⟨typeName, type, hexposed, hnow, htype, htarget, hheap, -⟩ := e.prepare_create_eq_new h
    have hnew : w'.heap.get w.heap.length = type.create := by simp [Heap.get, hheap]
    simp [subject?, hexposed, hnow, htype, htarget, hnew, Except.toOption]
  | update projection name id record =>
    obtain ⟨l, -, hknown, hfound, -, hentity, -⟩ := hkept.prepare_update_eq_known h
    obtain ⟨entity, typeName, -, -, rfl⟩ := known_eq_ok.mp hknown
    have hsame : w'.heap.get job.target = w.heap.get job.target :=
      Heap.get_of_extends ((e.keeps_prepare _).of_ok h).heap (hw _ _ hfound)
    dsimp only at hfound hentity
    simp [subject?, hknown, hfound, hentity, hsame, Except.toOption]

/-- The first look-up: the record that is written has what the id is bound to. -/
theorem get?_of_prepare {related : Entity} {f : Field} {y : String}
    (hrecord : c.record.keys.Nodup) (hnames : (job.entity.fields.map (·.name)).Nodup)
    (hbinds : e.Binds w c.record job.entity f related y) (h : e.prepare c w = .ok job w') :
    ∃ (v : Json) (x : String), v.externalId? = some x ∧
      job.record.get? f.name = some (v.withId y) := by
  obtain ⟨v, x, hv, hx, hbound⟩ := hbinds.bound
  refine ⟨v, x, hx, ?_⟩
  have htranslate {w₀ : World} {record : Record} (hbindings : w₀.bindings = w.bindings)
      (hv : record.get? f.name = some v)
      (herror : (e.translate w₀ job.entity record).2.error? = none) :
      (e.translate w₀ job.entity record).1.get? f.name = some (v.withId y) := by
    refine Translation.get?_translate hnames hbinds.mem hbinds.kind hbinds.name hbinds.leads hv hx
      ?_ herror
    rw [Translation.lookup_keptInWorld hkept, hbindings, hbound]
  cases c with
  | create projection name record =>
    obtain ⟨typeName, type, -, -, -, -, -, -, htranslation, herror, hjob⟩ :=
      e.prepare_create_eq_new h
    have hentry := htranslate rfl hv (htranslation ▸ herror)
    rw [hjob]
    -- The entry `id` may have been taken out since, which is another one.
    split
    · exact hentry
    · rw [Table.get?_remove_of_ne (by rw [Translation.keys_translate]; exact hrecord) hbinds.name]
      exact hentry
  | update projection name id record =>
    obtain ⟨l, w₀, -, -, hlearns, hentity, hjob, herror, -⟩ := hkept.prepare_update_eq_known h
    rw [← hentity] at hjob herror
    rw [hjob]
    -- Here it is taken out before anything is looked up.
    refine htranslate hlearns.bindings ?_ herror
    exact (Table.get?_remove_of_ne hrecord hbinds.name).trans hv

end KeptInWorld

/-- After a successful call that writes, the property of a reference field refers to what is stored
under the id that the bound one stands for in turn, which is the bound one itself unless it is bound
as well. White space around it does not count. If nothing is stored there the property is as it was
before, or as it is for a new object. -/
theorem run_refers (e : Engine) (newId : Nat → String) (w w' : World) (c : Change)
    (entity related : Entity) (h : Handle) (o : BusinessObject) (f : Field)
    (y typeName : String) (shown : Record) (hkept : e.KeptInWorld newId)
    (hr : e.registry.KeepsReferences)
    (haudit : ∀ audit, e.audit? = some audit → ∀ h isNew,
      Keeps (World.KeepsProperty e.registry f.property) (audit h isNew))
    (hw : w.Sound) (hrecord : c.record.keys.Nodup)
    (hsubject : e.subject? w c = some (entity, h, o)) (hmade : e.registry.Makes o.kind)
    (hplain : entity.Plain) (hbinds : e.Binds w c.record entity f related y)
    (hreference : e.registry.IsReference o.typeName f.property)
    (htype : e.typeNow w related.table = .ok typeName) (hrun : e.run c w = .ok shown w') :
    e.registry.getProperty w'.heap h f.property =
      match stored? w related.table typeName (Text.trim y) with
      | some g => .ok (.reference g)
      | none => e.registry.valueOf o f.property := by
  obtain ⟨job, w₁, w₂, hprepare, hwrite, hfinish⟩ := run_eq_ok.mp hrun
  obtain ⟨rfl, rfl, rfl⟩ : job.entity = entity ∧ job.target = h ∧ w₁.heap.get job.target = o := by
    simpa [hsubject, eq_comm] using hkept.subject?_of_prepare hw hprepare
  obtain ⟨v, x, hx, hv⟩ := hkept.get?_of_prepare hrecord hplain.names hbinds hprepare
  have hadds := (e.keeps_prepare c).of_ok hprepare
  have hlt := hkept.target_lt hw hprepare
  have hsame : stored? w₁ related.table typeName (Text.trim y) =
      stored? w related.table typeName (Text.trim y) := by
    rw [stored?, stored?, hadds.store, hadds.bindings]
  obtain ⟨hlt₂, hkind, hvalue⟩ := valueOf_writeOnto hr hkept haudit hplain hlt hbinds.mem
    hbinds.kind hreference hbinds.leads hv hx (hadds.types ▸ htype) hwrite
  -- Storing the object and binding its id come after that.
  have hheap : w'.heap = (w₂.save newId job.target).heap := by
    have hfinished := hkept.after_finish job w₂
    rw [after_of_ok hfinish] at hfinished
    rw [hfinished]
  change e.registry.valueOf (w'.heap.get job.target) f.property = _
  rw [hheap, World.valueOf_save hr hlt₂ (hkind ▸ hmade), hvalue, hsame]
  rw [BusinessObject.typeName, hkind]
  exact hreference

end Engine

namespace Sample

/-- Tickets belong to groups, and a group has updated them last. -/
def ticket : TypeDefinition where
  name := "Ticket"
  table := "500"
  auditable := true
  idProperty := some "id"
  properties := [
    property "id" .text,
    property "topic" (.reference "Category"),
    property "owner" (.reference "Category"),
    property "updated_by" (.reference "Category")]

/-- The owner stands where others have their id. -/
def ticketEntity : Entity where
  id := "TIC"
  name := "Ticket"
  table := "500"
  fields := [
    .reference "topic" "topic" "CAT",
    .reference "id" "owner" "CAT",
    .reference "editor" "updated_by" "CAT"]

def deskRegistry : Registry where
  types := [ticket, category].map fun d => (d.name, d.entityType)
  tables := [ticket, category].map fun d => (d.table, d.name)

def desk : Engine := { engine with
  catalog := {
    projections := [{ id := "P-DESK", name := "desk", entities := [ticketEntity, categoryEntity] }]
    index := { projections := [("desk", 0)], entities := [("TIC", (0, 0)), ("CAT", (0, 1))] } }
  registry := deskRegistry
  tableTypes := .ofRegistry deskRegistry
  audit? := some (.stamps deskRegistry "system" moment) }

def group (id : String) : BusinessObject := ⟨category.kind, [("id", .text id)]⟩

/-- The groups B and C can be called A and B, and C can be called L; the id of the third group,
which can be called S, has white space around it. -/
def office : World := { World.empty with
  heap := [group "B", group "C", group " D "]
  store := [(("Category", "B"), 0), (("Category", "C"), 1), (("Category", " D "), 2)]
  bindings := [
    (("209", "A"), "B"),
    (("209", "B"), "C"),
    (("209", "L"), "C"),
    (("209", "S"), " D ")] }

def filing (name x : String) : Change := .create "desk" "Ticket" [(name, .text x)]

theorem office_sound : office.Sound := by
  intro key h hkey
  have hmem := Table.mem_of_get? hkey
  simp only [office, List.mem_cons, Prod.mk.injEq, List.not_mem_nil, or_false] at hmem
  rcases hmem with ⟨-, rfl⟩ | ⟨-, rfl⟩ | ⟨-, rfl⟩ <;> decide

theorem ticketEntity_plain : ticketEntity.Plain :=
  ⟨by decide, by decide, by decide +kernel, by decide⟩

theorem deskRegistry_keepsReferences : deskRegistry.KeepsReferences :=
  @Registry.keepsReferences_of_definitions deskRegistry [ticket, category] rfl (by decide)

theorem desk_keptInWorld : desk.KeptInWorld numberedId := ⟨rfl, rfl⟩

end Sample

namespace Engine

set_option maxRecDepth 2000 in
theorem subject?_filing (name x : String) :
    Sample.desk.subject? Sample.office (Sample.filing name x) =
      some (Sample.ticketEntity, 3, Sample.ticket.entityType.create) := rfl

set_option maxRecDepth 4000 in
/-- The group that can be called A can be called B, but the group B is found by B no more. -/
theorem filing_refers : ∃ shown w', Sample.desk.run (Sample.filing "topic" "A") Sample.office =
      .ok shown w' ∧
    Sample.desk.registry.getProperty w'.heap 3 "topic" = .ok (.reference 1) := by
  obtain ⟨shown, hrun⟩ : ∃ shown, Sample.desk.run (Sample.filing "topic" "A") Sample.office =
      .ok shown _ := exists_eq_ok_of_value? (by decide +kernel)
  refine ⟨shown, _, hrun, ?_⟩
  have hrefers := run_refers Sample.desk numberedId Sample.office _ (Sample.filing "topic" "A")
    Sample.ticketEntity Sample.categoryEntity 3 Sample.ticket.entityType.create
    (.reference "topic" "topic" "CAT") "B" "Category" shown Sample.desk_keptInWorld
    Sample.deskRegistry_keepsReferences
    (fun audit haudit h isNew => by
      cases haudit
      exact keepsProperty_stamps Sample.deskRegistry_keepsReferences (by decide) _ _ h isNew)
    Sample.office_sound (by decide) (subject?_filing _ _) ⟨"Ticket", _, rfl, rfl⟩
    Sample.ticketEntity_plain
    ⟨by decide, rfl, by decide, by decide +kernel, _, "A", rfl, by decide +kernel, rfl⟩
    ⟨_, _, rfl, rfl⟩ (by decide +kernel) hrun
  have hstored : stored? Sample.office "209" "Category" (Text.trim "B") = some 1 := by
    decide +kernel
  rw [show Sample.categoryEntity.table = "209" from rfl, hstored] at hrefers
  exact hrefers

/-- An id of a reference field would lead to what is stored under the id that it is bound to, and no
further. -/
def TranslatesOnce (e : Engine) (w : World) (c : Change) : Prop :=
  ∀ entity related h o f v x y typeName g shown w', e.subject? w c = some (entity, h, o) →
    entity.Plain → f ∈ entity.fields → f.kind = .reference →
    e.registry.IsReference o.typeName f.property → e.related? f = some related →
    c.record.get? f.name = some v → v.externalId? = some x → Text.trim x = x →
    w.bindings.get? (related.table, x) = some y → e.typeNow w related.table = .ok typeName →
    w.store.get? (typeName, y) = some g → e.run c w = .ok shown w' →
    e.registry.getProperty w'.heap h f.property = .ok (.reference g)

/-- What the property of a field refers to once a ticket has been filed with that one entry. -/
def filed (f : Field) (x : String) : Option (Option Handle) :=
  match Sample.desk.run (Sample.filing f.name x) Sample.office with
  | .ok _ w' => (Sample.desk.registry.getProperty w'.heap 3 f.property).toOption.map (·.reference?)
  | .error .. => none

theorem not_translatesOnce {f : Field} {x y : String} {g : Handle} {found : Option Handle}
    (hf : f ∈ Sample.ticketEntity.fields) (hblank : Text.isBlank x = false)
    (htrim : Text.trim x = x) (hbound : Sample.office.bindings.get? ("209", x) = some y)
    (hstored : Sample.office.store.get? ("Category", y) = some g)
    (hfiled : filed f x = some found) (hne : found ≠ some g) :
    ¬ Sample.desk.TranslatesOnce Sample.office (Sample.filing f.name x) := by
  intro honce
  have hfields : ∀ f ∈ Sample.ticketEntity.fields,
      f.kind = .reference ∧ Sample.desk.related? f = some Sample.categoryEntity := by
    decide +kernel
  obtain ⟨hkind, hrelated⟩ := hfields f hf
  have hreference : Sample.desk.registry.IsReference "Ticket" f.property := by
    simp only [Sample.ticketEntity, List.mem_cons, List.not_mem_nil, or_false] at hf
    rcases hf with rfl | rfl | rfl <;> exact ⟨_, _, rfl, rfl⟩
  unfold filed at hfiled
  split at hfiled
  · next shown w' hrun =>
    have hrefers := honce Sample.ticketEntity Sample.categoryEntity 3
      Sample.ticket.entityType.create f (.text x) x y "Category" g shown w'
      (subject?_filing f.name x) Sample.ticketEntity_plain hf hkind hreference hrelated (if_pos rfl)
      (by simp [Json.externalId?, hblank]) htrim hbound (by decide +kernel) hstored hrun
    rw [hrefers] at hfiled
    exact hne (Option.some.inj hfiled).symm
  · cases hfiled

set_option maxRecDepth 4000 in
/-- It leads further where the id that it is bound to is bound as well, and astray where that has
white space around it; a field `id` loses its entry to the record itself, and stamps may take the
place of what has been written. -/
theorem filing_leads_elsewhere :
    ¬ Sample.desk.TranslatesOnce Sample.office (Sample.filing "topic" "A") ∧
    ¬ Sample.desk.TranslatesOnce Sample.office (Sample.filing "topic" "S") ∧
    ¬ Sample.desk.TranslatesOnce Sample.office (Sample.filing "id" "L") ∧
    ¬ Sample.desk.TranslatesOnce Sample.office (Sample.filing "editor" "L") := by
  refine ⟨?_, ?_, ?_, ?_⟩
  · exact @not_translatesOnce (.reference "topic" "topic" "CAT") "A" "B" 0 (some 1) (by decide)
      (by decide) (by decide) rfl rfl (by decide +kernel) (by decide)
  · exact @not_translatesOnce (.reference "topic" "topic" "CAT") "S" " D " 2 none (by decide)
      (by decide) (by decide) rfl rfl (by decide +kernel) (by decide)
  · exact @not_translatesOnce (.reference "id" "owner" "CAT") "L" "C" 1 none (by decide)
      (by decide) (by decide) rfl rfl (by decide +kernel) (by decide)
  · exact @not_translatesOnce (.reference "editor" "updated_by" "CAT") "L" "C" 1 none (by decide)
      (by decide) (by decide) rfl rfl (by decide +kernel) (by decide)

end Engine

end Fieldwise
