import Fieldwise.Proofs.Service.Frame

/-!
Calls of the service, and what can be reached by them. A call that writes goes through three phases:
it finds out what is to be written and onto which object, it writes, and it stores and shows the
object. Nothing that was there is different before the second phase.
-/

namespace Fieldwise

/-- A call that writes. -/
inductive Change
  | create (projection name : String) (record : Record)
  | update (projection name id : String) (record : Record)

inductive Call
  | get (projection name id : String)
  | change (c : Change)

/-- What a call that writes is about to write. -/
structure Job where
  entity : Entity
  /-- With internal ids. -/
  record : Record
  target : Handle
  isNew : Bool
  /-- Tells what is to be bound once the object is stored. -/
  translation : Translation
  /-- The errors of storing are told as errors of this. -/
  task : String

/-- What is stored is in the heap. -/
def World.Sound (w : World) : Prop := ∀ key h, w.store.get? key = some h → h < w.heap.length

namespace Engine

def run (e : Engine) : Change → Action Record
  | .create projection name record => e.createRecord projection name record
  | .update projection name id record => e.updateRecord projection name id record

def perform (e : Engine) : Call → Action Unit
  | .get projection name id => (fun _ => ()) <$> e.getRecord projection name id
  | .change c => (fun _ => ()) <$> e.run c

/-- The worlds that calls lead to, whether they succeed or fail. -/
inductive Reached (e : Engine) (start : World) : World → Prop
  | start : Reached e start start
  | call {w : World} (c : Call) : Reached e start w → Reached e start (after (e.perform c) w)

/-- The world that some calls lead to, one after the other, whether they succeed or fail. -/
def history (e : Engine) (start : World) (calls : List Call) : World :=
  calls.foldl (fun w c => after (e.perform c) w) start

theorem reached_iff {e : Engine} {start w : World} :
    e.Reached start w ↔ ∃ calls, w = e.history start calls := by
  constructor
  · intro h
    induction h with
    | start => exact ⟨[], rfl⟩
    | call c _ ih =>
      obtain ⟨calls, rfl⟩ := ih
      exact ⟨calls ++ [c], by simp [history]⟩
  · rintro ⟨calls, rfl⟩
    suffices hmore : ∀ w, e.Reached start w → e.Reached start (e.history w calls) from
      hmore start .start
    induction calls with
    | nil => exact fun w hw => hw
    | cons c rest ih => exact fun w hw => ih _ (.call c hw)

def prepare (e : Engine) : Change → Action Job
  | .create projection name record => do
    let entity ← Action.lift (e.exposed projection name)
    let (record, t) ← e.translated entity record
    let record := if t.deferrals.isEmpty then record else record.remove "id"
    let h ← e.target record none entity entity.fields
    pure ⟨entity, record, h, true, t, s!"saving new {projection}.{name}"⟩
  | .update projection name id record => do
    let asked ← e.lookUp projection name id
    let some h := asked.found
      | Action.fail (.entityNotFound asked.typeName asked.id)
    let (record, _) ← e.translated asked.entity (record.remove "id")
    let h ← e.target record (some h) asked.entity asked.entity.fields
    pure ⟨asked.entity, record, h, false, {}, s!"saving {projection}.{name} {asked.id}"⟩

def write (e : Engine) (job : Job) : Action Unit :=
  e.writeOnto job.record job.target job.isNew job.entity.fields

def finish (e : Engine) (job : Job) : Action Record := do
  (e.persistence.save job.target).within job.task
  let _ ← e.bindDeferrals job.translation job.target
  e.shown job.target job.entity

theorem run_eq_phases (e : Engine) (c : Change) :
    e.run c = e.prepare c >>= fun job => e.write job >>= fun _ => e.finish job := by
  cases c with
  | create projection name record =>
    simp only [run, createRecord, prepare, writeRecord, bind_assoc, pure_bind]
    rfl
  | update projection name id record =>
    simp only [run, updateRecord, prepare, writeRecord, bind_assoc, pure_bind]
    refine bind_congr fun asked => ?_
    cases asked.found with
    | none => rfl
    | some h =>
      simp only [bind_assoc, pure_bind]
      rfl

theorem run_eq_ok {e : Engine} {c : Change} {w w' : World} {shown : Record} :
    e.run c w = .ok shown w' ↔ ∃ job w₁ w₂, e.prepare c w = .ok job w₁ ∧
      e.write job w₁ = .ok () w₂ ∧ e.finish job w₂ = .ok shown w' := by
  simp only [run_eq_phases, bind_eq_ok]
  constructor
  · rintro ⟨job, w₁, hprepare, _, w₂, hwrite, hfinish⟩
    exact ⟨job, w₁, w₂, hprepare, hwrite, hfinish⟩
  · rintro ⟨job, w₁, w₂, hprepare, hwrite, hfinish⟩
    exact ⟨job, w₁, hprepare, (), w₂, hwrite, hfinish⟩

theorem after_run_cases (e : Engine) (c : Change) (w : World) :
    (∃ f, e.prepare c w = .error f (after (e.run c) w)) ∨
      ∃ job w₁, e.prepare c w = .ok job w₁ ∧
        ((∃ f, e.write job w₁ = .error f (after (e.run c) w)) ∨
          ∃ w₂, e.write job w₁ = .ok () w₂ ∧ after (e.run c) w = after (e.finish job) w₂) := by
  rw [run_eq_phases, after_bind]
  cases hprepare : e.prepare c w with
  | error f w₁ => exact .inl ⟨f, rfl⟩
  | ok job w₁ =>
    refine .inr ⟨job, w₁, rfl, ?_⟩
    dsimp only
    rw [after_bind]
    cases hwrite : e.write job w₁ with
    | error f w₂ => exact .inl ⟨f, rfl⟩
    | ok u w₂ => exact .inr ⟨w₂, rfl, rfl⟩

def known (e : Engine) (w : World) (projection name id : String) : Except Error Lookup := do
  let entity ← e.exposed projection name
  let typeName ← e.typeNow w entity.table
  let id := (w.bindings.get? (entity.table, id)).getD id
  pure { entity, typeName, id, found := w.store.get? (typeName, id) }

variable {e : Engine} {w w₁ : World} {newId : Nat → String}

theorem known_eq_ok {projection name id : String} {l : Lookup} :
    e.known w projection name id = .ok l ↔ ∃ entity typeName,
      e.exposed projection name = .ok entity ∧ e.typeNow w entity.table = .ok typeName ∧
        l = ⟨entity, typeName, (w.bindings.get? (entity.table, id)).getD id,
          w.store.get? (typeName, (w.bindings.get? (entity.table, id)).getD id)⟩ := by
  simp only [known, except_bind_eq_ok, exists_and_left]
  refine exists_congr fun entity => and_congr_right fun _ => exists_congr fun typeName =>
    and_congr_right fun _ => ?_
  exact ⟨fun h => (Except.ok.inj h).symm, fun h => congrArg _ h.symm⟩

theorem keeps_translated (e : Engine) (entity : Entity) (record : Record) :
    Keeps e.Learns (e.translated entity record) := by
  unfold translated
  refine Keeps.get.bind fun w => ?_
  dsimp only
  split
  · exact .fail
  · exact .pure

theorem keeps_lookUp (e : Engine) (projection name id : String) :
    Keeps e.Learns (e.lookUp projection name id) :=
  Keeps.lift.bind fun entity => (e.keeps_typeOfTable entity.table).bind fun _ =>
    (e.keeps_internalId entity.table id).bind fun _ => Keeps.observe.bind fun _ => .pure

/-- Whatever the collaborators do, they are only asked before the first write. -/
theorem keeps_prepare (e : Engine) (c : Change) : Keeps e.AddsObjects (e.prepare c) := by
  cases c with
  | create projection name record =>
    refine Keeps.lift.bind fun entity => ?_
    exact (e.keeps_translated entity record).addsObjects.bind fun result =>
      (e.keeps_target _ _ _ _).bind fun h => .pure
  | update projection name id record =>
    refine (e.keeps_lookUp projection name id).addsObjects.bind fun asked => ?_
    split
    · exact (e.keeps_translated _ _).addsObjects.bind fun result =>
        (e.keeps_target _ _ _ _).bind fun h => .pure
    · exact .fail

theorem translated_eq_ok {entity : Entity} {record : Record} {result : Record × Translation}
    (h : e.translated entity record w = .ok result w₁) :
    w₁ = w ∧ e.translate w entity record = result ∧ result.2.error? = none := by
  obtain ⟨_, _, ⟨rfl, rfl⟩, h⟩ := bind_eq_ok.mp h
  cases herror : (e.translate w entity record).2.error? with
  | some error => simp [herror] at h
  | none =>
    simp only [herror, pure_apply, EStateM.Result.ok.injEq] at h
    obtain ⟨rfl, rfl⟩ := h
    exact ⟨rfl, rfl, herror⟩

theorem exists_type_of_instantiate {entity : Entity} {h : Handle}
    (hnew : e.instantiate entity w = .ok h w₁) : ∃ name type,
      e.typeNow w entity.table = .ok name ∧ e.registry.type? name = some type ∧
        h = w.heap.length ∧ w₁.heap = w.heap ++ [type.create] := by
  obtain ⟨name, w', hname, hnew⟩ := bind_eq_ok.mp hnew
  obtain ⟨hnow, hlearns⟩ := (e.answers_typeOfTable w entity.table).of_ok hname
  cases htype : e.registry.type? name with
  | none => simp [htype] at hnew
  | some type =>
    simp only [htype] at hnew
    cases hnew
    exact ⟨name, type, hnow, htype, by simp [hlearns.heap], by simp [hlearns.heap]⟩

theorem instantiate_eq_ok {entity : Entity} {h : Handle}
    (hnew : e.instantiate entity w = .ok h w₁) :
    h = w.heap.length ∧ w₁.heap.length = w.heap.length + 1 := by
  obtain ⟨name, type, -, -, hh, hheap⟩ := exists_type_of_instantiate hnew
  exact ⟨hh, by simp [hheap]⟩

theorem instantiate_of_target {record : Record} {entity : Entity} {fields : List Field}
    {h : Handle} (htarget : e.target record none entity fields w = .ok h w₁) :
    e.instantiate entity w = .ok h w₁ := by
  unfold target at htarget
  cases hmissing : missingField? fields record with
  | some f => simp [hmissing] at htarget
  | none => simpa [hmissing] using htarget

theorem target_eq_ok {record : Record} {existing : Option Handle} {entity : Entity}
    {fields : List Field} {h : Handle}
    (htarget : e.target record existing entity fields w = .ok h w₁) :
    existing = some h ∨
      existing = none ∧ h = w.heap.length ∧ w₁.heap.length = w.heap.length + 1 := by
  unfold target at htarget
  cases hmissing : missingField? fields record with
  | some f => simp [hmissing] at htarget
  | none =>
    simp only [hmissing] at htarget
    cases existing with
    | some g =>
      cases htarget
      exact .inl rfl
    | none => exact .inr ⟨rfl, instantiate_eq_ok htarget⟩

namespace KeptInWorld

variable (hkept : e.KeptInWorld newId)

include hkept

theorem answers_internalId (table id : String) (w : World) :
    e.Answers (e.internalId table id) w (.ok ((w.bindings.get? (table, id)).getD id)) := by
  rw [internalId, hkept.externalIds]
  exact Answers.observe.bind_ok fun _ _ => .pure

theorem answers_load (typeName id : String) (w : World) :
    e.Answers (Action.observe (e.persistence.load typeName id)) w
      (.ok (w.store.get? (typeName, id))) := by
  rw [hkept.persistence]
  exact .observe

theorem answers_lookUp (w : World) (projection name id : String) :
    e.Answers (e.lookUp projection name id) w (e.known w projection name id) := by
  refine Answers.lift.bind fun entity w₁ h₁ => ?_
  rw [← h₁.types]
  refine (e.answers_typeOfTable w₁ entity.table).bind fun typeName w₂ h₂ => ?_
  rw [← h₁.bindings, ← h₁.store, ← h₂.bindings, ← h₂.store]
  refine (hkept.answers_internalId entity.table id w₂).bind_ok fun w₃ h₃ => ?_
  rw [← h₃.store]
  exact (hkept.answers_load typeName _ w₃).bind_ok fun _ _ => .pure

theorem prepare_update_eq_known {projection name id : String} {record : Record} {job : Job}
    (h : e.prepare (.update projection name id record) w = .ok job w₁) :
    ∃ l w', e.known w projection name id = .ok l ∧ l.found = some job.target ∧ e.Learns w w' ∧
      job.entity = l.entity ∧ job.record = (e.translate w' l.entity (record.remove "id")).1 ∧
      (e.translate w' l.entity (record.remove "id")).2.error? = none ∧
      job.isNew = false ∧ job.translation = {} := by
  simp only [prepare, bind_eq_ok] at h
  obtain ⟨asked, w', hasked, h⟩ := h
  obtain ⟨hknown, hlearns⟩ := (hkept.answers_lookUp w projection name id).of_ok hasked
  cases hfound : asked.found with
  | none => simp [hfound] at h
  | some g =>
    simp only [hfound, bind_eq_ok] at h
    obtain ⟨result, _, htranslated, target, _, htarget, h⟩ := h
    obtain ⟨rfl, rfl, herror⟩ := translated_eq_ok htranslated
    cases h
    obtain rfl : g = target := by simpa using target_eq_ok htarget
    exact ⟨asked, _, hknown, hfound, hlearns, rfl, rfl, herror, rfl, rfl⟩

/-- What is written is either a new object, for which ids may have to be bound, or a stored one. -/
theorem prepare_eq_ok {c : Change} {job : Job} (h : e.prepare c w = .ok job w₁) :
    e.AddsObjects w w₁ ∧
      if job.isNew then job.target = w.heap.length ∧ w₁.heap.length = w.heap.length + 1
      else job.translation.deferrals = [] ∧ ∃ key, w.store.get? key = some job.target := by
  refine ⟨(e.keeps_prepare c).of_ok h, ?_⟩
  cases c with
  | create projection name record =>
    simp only [prepare, bind_eq_ok, Action.lift_eq_ok] at h
    obtain ⟨entity, _, ⟨-, rfl⟩, ⟨record, t⟩, w', htranslated, target, _, htarget, h⟩ := h
    obtain ⟨rfl, -, -⟩ := translated_eq_ok htranslated
    cases h
    simpa using target_eq_ok htarget
  | update projection name id record =>
    obtain ⟨l, w', hknown, hfound, -, -, -, -, hisNew, htranslation⟩ :=
      hkept.prepare_update_eq_known h
    obtain ⟨entity, typeName, -, -, rfl⟩ := known_eq_ok.mp hknown
    rw [hisNew, htranslation]
    exact ⟨rfl, _, hfound⟩

end KeptInWorld

end Engine

/-- Nothing is different but what is bound. -/
def World.ChangesBindings (w w' : World) : Prop := w' = { w with bindings := w'.bindings }

namespace World

instance : Std.Refl ChangesBindings := ⟨fun _ => rfl⟩

instance : IsTrans World ChangesBindings where
  trans w w' w'' h h' := by
    unfold ChangesBindings at *
    rw [h', h]

theorem save_eq (newId : Nat → String) (w : World) (h : Handle) : ∃ key heap issued,
    heap.length = w.heap.length ∧
      w.save newId h = { w with heap, store := w.store.put key h, issued } := by
  simp only [save]
  split
  · exact ⟨_, _, _, rfl, rfl⟩
  · exact ⟨_, _, _, Heap.length_put .., rfl⟩

theorem empty_sound : empty.Sound := fun _ _ hkey => nomatch hkey

theorem Sound.of_store {w w' : World} (hw : w.Sound) (hstore : w'.store = w.store)
    (hlength : w.heap.length ≤ w'.heap.length) : w'.Sound := by
  intro key h hkey
  rw [hstore] at hkey
  exact Nat.lt_of_lt_of_le (hw key h hkey) hlength

theorem Sound.save {w : World} (hw : w.Sound) {h : Handle} (hh : h < w.heap.length)
    (newId : Nat → String) : (w.save newId h).Sound := by
  obtain ⟨key, heap, issued, hlength, hsave⟩ := w.save_eq newId h
  rw [hsave]
  intro key' h' hkey'
  dsimp only at hkey' ⊢
  rw [hlength]
  by_cases hk : key' = key
  · subst hk
    obtain rfl : h = h' := by simpa using hkey'
    exact hh
  · rw [Table.get?_put_of_ne hk] at hkey'
    exact hw key' h' hkey'

end World

namespace Engine

variable {e : Engine} {w w' : World} {newId : Nat → String}

theorem ChangesObjects.sound (h : e.ChangesObjects w w') (hw : w.Sound) : w'.Sound :=
  hw.of_store h.store h.length

theorem keeps_shown {R : World → World → Prop} [Std.Refl R] [IsTrans World R] (e : Engine)
    (h : Handle) (entity : Entity) : Keeps R (e.shown h entity) := by
  refine Keeps.get.bind fun w => ?_
  split
  · exact .pure
  · exact .throw

theorem keeps_bindDeferrals_of {R : World → World → Prop} [Std.Refl R] [IsTrans World R]
    (hbind : ∀ table externalId id, Keeps R (e.externalIds.bind table externalId id))
    (t : Translation) (h : Handle) : Keeps R (e.bindDeferrals t h) := by
  unfold bindDeferrals
  split
  · exact .pure
  · refine Keeps.get.bind fun w => ?_
    split
    · exact (Keeps.forM fun d _ => hbind _ _ _).bind fun _ => .pure
    · exact .fail

theorem keeps_getRecord (e : Engine) (projection name id : String) :
    Keeps e.Learns (e.getRecord projection name id) := by
  refine (e.keeps_lookUp projection name id).bind fun asked => ?_
  split
  · exact (e.keeps_shown _ _).map
  · exact .pure

namespace KeptInWorld

variable (hkept : e.KeptInWorld newId)

include hkept

theorem keeps_bindDeferrals (t : Translation) (h : Handle) :
    Keeps World.ChangesBindings (e.bindDeferrals t h) := by
  refine keeps_bindDeferrals_of (fun table externalId id => ?_) t h
  rw [hkept.externalIds]
  exact fun w => rfl

/-- Storing always succeeds, so this is what is left in any case. -/
theorem after_finish (job : Job) (w : World) :
    World.ChangesBindings (w.save newId job.target) (after (e.finish job) w) := by
  unfold finish
  rw [hkept.persistence]
  exact (hkept.keeps_bindDeferrals _ _).bind (fun _ => e.keeps_shown _ _) _

theorem target_lt {c : Change} {job : Job} (hw : w.Sound) (h : e.prepare c w = .ok job w') :
    job.target < w'.heap.length := by
  obtain ⟨hadds, htarget⟩ := hkept.prepare_eq_ok h
  split at htarget
  · obtain ⟨htarget, hlength⟩ := htarget
    rw [htarget, hlength]
    exact Nat.lt_succ_self _
  · obtain ⟨-, key, hkey⟩ := htarget
    exact Nat.lt_of_lt_of_le (hw key _ hkey) hadds.length

end KeptInWorld

namespace InMemory

variable (hmemory : e.InMemory newId)

include hmemory

theorem keeps_write (job : Job) : Keeps e.ChangesObjects (e.write job) :=
  hmemory.keeps_writeOnto _ _ _ _

theorem changesObjects_of_phases {c : Change} {job : Job} {w'' : World}
    (hprepare : e.prepare c w = .ok job w') (hwrite : e.write job w' = .ok () w'') :
    e.ChangesObjects w w'' :=
  trans_of e.ChangesObjects ((e.keeps_prepare c).of_ok hprepare).toChangesObjects
    ((hmemory.keeps_write job).of_ok hwrite)

theorem run_sound (hw : w.Sound) (c : Change) : (after (e.run c) w).Sound := by
  rcases e.after_run_cases c w with ⟨f, hprepare⟩ | ⟨job, w₁, hprepare, hwrite⟩
  · exact ((e.keeps_prepare c).of_error hprepare).sound hw
  · have hw₁ : w₁.Sound := ((e.keeps_prepare c).of_ok hprepare).sound hw
    rcases hwrite with ⟨f, hwrite⟩ | ⟨w₂, hwrite, hfinish⟩
    · exact ((hmemory.keeps_write job).of_error hwrite).sound hw₁
    · -- Only the last phase stores something, and by then that is in the heap.
      have hwritten := (hmemory.keeps_write job).of_ok hwrite
      have htarget : job.target < w₂.heap.length :=
        Nat.lt_of_lt_of_le (hmemory.target_lt hw hprepare) hwritten.length
      have hsaved : (w₂.save newId job.target).Sound := (hwritten.sound hw₁).save htarget newId
      rw [hfinish, hmemory.after_finish job w₂]
      exact hsaved.of_store rfl (Nat.le_refl _)

theorem reached_sound {start : World} (hstart : start.Sound) (h : e.Reached start w) :
    w.Sound := by
  induction h with
  | start => exact hstart
  | @call w c _ ih =>
    cases c with
    | get projection name id =>
      have hget := e.keeps_getRecord projection name id
      exact (hget.map w).sound ih
    | change c =>
      rw [perform, after_map]
      exact hmemory.run_sound ih c

end InMemory

end Engine

end Fieldwise
