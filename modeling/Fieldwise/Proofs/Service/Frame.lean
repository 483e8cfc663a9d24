import Fieldwise.Proofs.Outcome
import Fieldwise.Sample.Engine
import Fieldwise.Service

/-!
What writing a record leaves alone. Up to the first write there are at most new objects; from then
on objects may be different, but what is stored, what is bound and what the types of tables are
stays, whether the writing succeeds or fails.
-/

namespace Fieldwise

variable {α : Type}

namespace Action

@[simp] theorem lift_ok (a : α) (w : World) : lift (.ok a) w = .ok a w := rfl

@[simp] theorem lift_error (e : Error) (w : World) :
    (lift (.error e) : Action α) w = .error (.error e) w := rfl

theorem lift_eq_ok {result : Except Error α} {a : α} {w w' : World} :
    lift result w = .ok a w' ↔ result = .ok a ∧ w' = w := by
  cases result <;> simp [eq_comm]

@[simp] theorem fail_apply (e : Error) (w : World) :
    (fail e : Action α) w = .error (.error e) w := rfl

end Action

namespace Keeps

variable {R : World → World → Prop}

theorem lift [Std.Refl R] {result : Except Error α} : Keeps R (Action.lift result) := by
  intro w
  cases result <;> exact refl_of R w

theorem observe [Std.Refl R] {look : World → Except Error α} : Keeps R (Action.observe look) :=
  fun w => lift w

theorem fail [Std.Refl R] {e : Error} : Keeps R (Action.fail e : Action α) := throw

theorem changeHeap {change : Heap → Except Error Heap}
    (h : ∀ w heap, change w.heap = .ok heap → R w { w with heap }) (hrefl : ∀ w, R w w) :
    Keeps R (Action.changeHeap change) := by
  intro w
  unfold after Action.changeHeap
  cases hx : change w.heap with
  | ok heap => exact h w heap hx
  | error e => exact hrefl w

end Keeps

theorem Registry.length_of_setProperty {r : Registry} {heap heap' : Heap} {h : Handle}
    {property : String} {v : PropertyValue} (hset : r.setProperty heap h property v = .ok heap') :
    heap'.length = heap.length := by
  unfold setProperty at hset
  obtain ⟨a, -, hset⟩ := except_bind_eq_ok.mp hset
  obtain ⟨o, -, hset⟩ := except_bind_eq_ok.mp hset
  cases hset
  exact Heap.length_put ..

theorem Registry.length_of_setPath {r : Registry} {heap heap' : Heap} {h : Handle}
    {path : String} {v : PropertyValue} (hset : r.setPath heap h path v = .ok heap') :
    heap'.length = heap.length := by
  unfold setPath at hset
  split at hset
  · exact length_of_setProperty hset
  · obtain ⟨found, -, hset⟩ := except_bind_eq_ok.mp hset
    split at hset
    · exact length_of_setProperty hset
    · split at hset
      · cases hset
        rfl
      · cases hset
    · cases hset

namespace Engine

variable {e : Engine} {w w' w'' : World}

/-- The name of the type of a table as it is known by now or, where it is not, would be told. -/
def typeNow (e : Engine) (w : World) (table : String) : Except Error String :=
  match w.tableTypes.get? table with
  | some name => .ok name
  | none =>
    match e.tableTypes table with
    | .ok (some name) => .ok name
    | .ok none => .error (.instantiation table "no business type registered for table")
    | .error err => .error err

/-- Nothing is different but objects, and none is gone. -/
structure ChangesObjects (e : Engine) (w w' : World) : Prop where
  store : w'.store = w.store
  bindings : w'.bindings = w.bindings
  issued : w'.issued = w.issued
  types : e.typeNow w' = e.typeNow w
  length : w.heap.length ≤ w'.heap.length

/-- Nothing is different but that there may be new objects. -/
structure AddsObjects (e : Engine) (w w' : World) : Prop extends e.ChangesObjects w w' where
  heap : w.heap <+: w'.heap

/-- Nothing is different but what is remembered of the types of tables. -/
structure Learns (e : Engine) (w w' : World) : Prop extends e.ChangesObjects w w' where
  heap : w'.heap = w.heap

theorem Learns.addsObjects (h : e.Learns w w') : e.AddsObjects w w' where
  toChangesObjects := h.toChangesObjects
  heap := h.heap ▸ List.prefix_rfl

instance : Std.Refl e.ChangesObjects := ⟨fun _ => ⟨rfl, rfl, rfl, rfl, Nat.le_refl _⟩⟩

instance : IsTrans World e.ChangesObjects where
  trans _ _ _ h h' := ⟨h'.store.trans h.store, h'.bindings.trans h.bindings,
    h'.issued.trans h.issued, h'.types.trans h.types, Nat.le_trans h.length h'.length⟩

instance : Std.Refl e.AddsObjects := ⟨fun w => ⟨refl_of e.ChangesObjects w, List.prefix_rfl⟩⟩

instance : IsTrans World e.AddsObjects where
  trans _ _ _ h h' := ⟨trans_of e.ChangesObjects h.toChangesObjects h'.toChangesObjects,
    h.heap.trans h'.heap⟩

instance : Std.Refl e.Learns := ⟨fun w => ⟨refl_of e.ChangesObjects w, rfl⟩⟩

instance : IsTrans World e.Learns where
  trans _ _ _ h h' := ⟨trans_of e.ChangesObjects h.toChangesObjects h'.toChangesObjects,
    h'.heap.trans h.heap⟩

end Engine

theorem Keeps.addsObjects {e : Engine} {x : Action α} (h : Keeps e.Learns x) :
    Keeps e.AddsObjects x :=
  h.mono fun _ _ hlearns => hlearns.addsObjects

namespace Engine

variable {e : Engine}

/-- An action that answers a question about the world, and only learns by that. -/
def Answers (e : Engine) (x : Action α) (w : World) (answer : Except Error α) : Prop :=
  ∃ w', e.Learns w w' ∧ x w = match answer with
    | .ok a => .ok a w'
    | .error err => .error (.error err) w'

namespace Answers

variable {β : Type} {x : Action α} {w w' : World} {answer : Except Error α}

theorem pure {a : α} : e.Answers (pure a) w (.ok a) := ⟨w, refl_of e.Learns w, rfl⟩

theorem lift : e.Answers (Action.lift answer) w answer := by
  refine ⟨w, refl_of e.Learns w, ?_⟩
  cases answer <;> rfl

theorem observe {look : World → Except Error α} : e.Answers (Action.observe look) w (look w) :=
  lift

theorem bind {k : α → Action β} {further : α → Except Error β} (h : e.Answers x w answer)
    (hk : ∀ a w', e.Learns w w' → e.Answers (k a) w' (further a)) :
    e.Answers (x >>= k) w (answer >>= further) := by
  obtain ⟨w', hlearns, happly⟩ := h
  unfold Answers
  rw [bind_apply, happly]
  cases answer with
  | ok a =>
    obtain ⟨w'', hlearns', happly'⟩ := hk a w' hlearns
    exact ⟨w'', trans_of e.Learns hlearns hlearns', happly'⟩
  | error err => exact ⟨w', hlearns, rfl⟩

theorem bind_ok {k : α → Action β} {a : α} {further : Except Error β}
    (h : e.Answers x w (.ok a)) (hk : ∀ w', e.Learns w w' → e.Answers (k a) w' further) :
    e.Answers (x >>= k) w further := by
  obtain ⟨w', hlearns, happly⟩ := h
  obtain ⟨w'', hlearns', happly'⟩ := hk w' hlearns
  refine ⟨w'', trans_of e.Learns hlearns hlearns', ?_⟩
  rw [bind_apply, happly]
  exact happly'

theorem of_ok {a : α} (h : e.Answers x w answer) (hx : x w = .ok a w') :
    answer = .ok a ∧ e.Learns w w' := by
  obtain ⟨w'', hlearns, happly⟩ := h
  rw [hx] at happly
  cases answer with
  | ok b =>
    cases happly
    exact ⟨rfl, hlearns⟩
  | error err => cases happly

theorem keeps {look : World → Except Error α} (h : ∀ w, e.Answers x w (look w)) :
    Keeps e.Learns x := by
  intro w
  obtain ⟨w', hlearns, happly⟩ := h w
  unfold after
  rw [happly]
  cases look w <;> exact hlearns

end Answers

theorem answers_typeOfTable (e : Engine) (w : World) (table : String) :
    e.Answers (e.typeOfTable table) w (e.typeNow w table) := by
  unfold typeOfTable typeNow
  cases hknown : w.tableTypes.get? table with
  | some name => exact ⟨w, refl_of e.Learns w, by simp [bind_apply, hknown]⟩
  | none =>
    have hasked : e.Learns w { w with lookups := w.lookups + 1 } :=
      ⟨⟨rfl, rfl, rfl, rfl, Nat.le_refl _⟩, rfl⟩
    cases hanswer : e.tableTypes table with
    | error err => exact ⟨_, hasked, by simp [bind_apply, hknown]⟩
    | ok answer =>
      cases answer with
      | none => exact ⟨_, hasked, by simp [bind_apply, hknown]⟩
      | some name =>
        refine ⟨{ w with lookups := w.lookups + 1, tableTypes := w.tableTypes.put table name },
          ⟨⟨rfl, rfl, rfl, ?_, Nat.le_refl _⟩, rfl⟩, by simp [bind_apply, map_apply, hknown]⟩
        -- The answer that is remembered now is the one that would have been given.
        funext other
        by_cases hother : other = table
        · subst hother
          simp [typeNow, hknown, hanswer]
        · simp [typeNow, Table.get?_put_of_ne hother]

theorem keeps_typeOfTable (e : Engine) (table : String) :
    Keeps e.Learns (e.typeOfTable table) :=
  Answers.keeps fun w => e.answers_typeOfTable w table

theorem keeps_internalId (e : Engine) (table id : String) :
    Keeps e.Learns (e.internalId table id) :=
  Keeps.observe.bind fun _ => .pure

theorem keeps_instantiate (e : Engine) (entity : Entity) :
    Keeps e.AddsObjects (e.instantiate entity) := by
  refine (e.keeps_typeOfTable entity.table).addsObjects.bind fun name => ?_
  split
  · rename_i type _
    intro w
    have hadded : w.heap <+: w.heap ++ [type.create] := List.prefix_append ..
    exact ⟨⟨rfl, rfl, rfl, rfl, hadded.length_le⟩, hadded⟩
  · exact .fail

theorem keeps_target (e : Engine) (record : Record) (existing : Option Handle) (entity : Entity)
    (fields : List Field) : Keeps e.AddsObjects (e.target record existing entity fields) := by
  unfold target
  split
  · exact .fail
  · exact .pure
  · exact e.keeps_instantiate entity

theorem keeps_resolve (e : Engine) (table typeName : String) (f : Field) (v : Json) :
    Keeps e.Learns (e.resolve table typeName f v) := by
  unfold resolve
  split
  · exact (e.keeps_internalId _ _).bind fun _ => .observe
  · exact .fail

theorem keeps_resolveAll (e : Engine) (table typeName : String) (f : Field) (items : List Json) :
    Keeps e.Learns (e.resolveAll table typeName f items) := by
  induction items with
  | nil => exact .pure
  | cons v rest ih =>
    unfold resolveAll
    split
    · exact ih
    · exact (e.keeps_resolve table typeName f v).bind fun _ => ih.bind fun _ => .pure

/-- The value that a reference field assigns; none if it is skipped, as it is for a single object
that is not there. -/
def assigned (e : Engine) (f : Field) (v : Json) : Action (Option PropertyValue) := do
  if v.isNull then pure (some .null)
  else
    let some related := e.related? f | pure none
    let typeName ← e.typeOfTable related.table
    match v with
    | .array items =>
      let found ← e.resolveAll related.table typeName f items
      pure (some (.list (found.map .reference)))
    | _ =>
      let found ← e.resolve related.table typeName f v
      pure (found.map .reference)

theorem writeReference_eq (h : Handle) (f : Field) (v : Json) :
    e.writeReference h f v = (do
      match ← e.assigned f v with
      | some u => Action.changeHeap fun heap => e.registry.setPath heap h f.property u
      | none => pure ()) := by
  simp only [writeReference, assigned]
  split
  · simp
  · cases e.related? f with
    | none => simp
    | some related =>
      simp only [bind_assoc]
      congr 1
      funext typeName
      split
      · simp
      · simp only [bind_assoc, pure_bind]
        congr 1
        funext found
        cases found <;> rfl

theorem keeps_assigned (f : Field) (v : Json) : Keeps e.Learns (e.assigned f v) := by
  unfold assigned
  split
  · exact .pure
  · split
    · refine (e.keeps_typeOfTable _).bind fun typeName => ?_
      split
      · exact (e.keeps_resolveAll _ _ _ _).bind fun found => .pure
      · exact (e.keeps_resolve _ _ _ _).bind fun found => .pure
    · exact .pure

theorem keeps_changeHeap {change : Heap → Except Error Heap}
    (h : ∀ heap heap', change heap = .ok heap' → heap'.length = heap.length) :
    Keeps e.ChangesObjects (Action.changeHeap change) :=
  .changeHeap (fun _ _ hheap => ⟨rfl, rfl, rfl, rfl, Nat.le_of_eq (h _ _ hheap).symm⟩)
    (refl_of e.ChangesObjects)

theorem keeps_assign (h : Handle) (property : String) (v : PropertyValue) :
    Keeps e.ChangesObjects
      (Action.changeHeap fun heap => e.registry.setPath heap h property v) :=
  keeps_changeHeap fun _ _ hset => Registry.length_of_setPath hset

section

variable {R : World → World → Prop} [Std.Refl R] [IsTrans World R]

/-- A field is written by setting its property to some value, or by a custom writer; all else is
learning. -/
theorem keeps_writeEntry_of (hlearns : ∀ w w', e.Learns w w' → R w w') {record : Record}
    {h : Handle} {f : Field}
    (hset : record.get? f.name ≠ none → f.kind = .direct ∨ f.kind = .reference → ∀ value, Keeps R
      (Action.changeHeap fun heap => e.registry.setPath heap h f.property value))
    (hwriters : f.kind = .custom → ∀ entry ∈ e.custom.writers, Keeps R (entry.2 h record f)) :
    Keeps R (e.writeEntry record h f) := by
  unfold writeEntry
  cases hv : record.get? f.name with
  | none => exact .pure
  | some v =>
    have hset := hset (by simp [hv])
    cases hkind : f.kind with
    | direct =>
      intro w
      simp only [MappingKind.strategy?, writeBy, writeDirect, after, Action.changeHeap]
      cases e.registry.declaredType (w.heap.get h).typeName f.property with
      | error err => exact refl_of R w
      | ok type =>
        simp only [bind, Except.bind]
        cases coerce e.settings f.property type v with
        | error err => exact refl_of R w
        | ok value => exact hset (.inl hkind) value w
    | reference =>
      simp only [MappingKind.strategy?, writeBy, writeReference_eq]
      refine ((keeps_assigned f v).mono hlearns).bind fun value => ?_
      cases value with
      | none => exact .pure
      | some value => exact hset (.inr hkind) value
    | custom =>
      simp only [MappingKind.strategy?, writeBy, writeCustom]
      split
      · next write hwrite => exact hwriters hkind _ (Table.mem_of_get? hwrite)
      · exact .pure
    | _ => exact .pure

theorem keeps_writeOnto_of {record : Record} {h : Handle} {isNew : Bool} {fields : List Field}
    (hentries : ∀ f ∈ fields, Keeps R (e.writeEntry record h f))
    (haudit : ∀ audit, e.audit? = some audit → Keeps R (audit h isNew)) :
    Keeps R (e.writeOnto record h isNew fields) := by
  refine (Keeps.forM hentries).bind fun _ => ?_
  unfold auditWritten
  split
  · rename_i audit hsome
    refine Keeps.get.bind fun w => ?_
    split
    · exact haudit audit hsome
    · exact .pure
  · exact .pure

/-- The properties that stamps set, as far as an object has them. -/
def stampedProperties : List String := ["created", "created_by", "updated", "updated_by"]

theorem keeps_stamps_of {r : Registry} {h : Handle}
    (hset : ∀ property ∈ stampedProperties, ∀ v, Keeps R
      (Action.changeHeap fun heap => r.setProperty heap h property v))
    (user : String) (now : Calendar.DateTime) (isNew : Bool) :
    Keeps R (Audit.stamps r user now h isNew) := by
  have hstamp {property : String} (hproperty : property ∈ stampedProperties)
      (v : PropertyValue) : Keeps R (Audit.stamp r h property v) := by
    intro w
    by_cases hhas : r.hasProperty (w.heap.get h).typeName property
    · have hw := hset property hproperty v w
      simpa [after, Audit.stamp, Action.changeHeap, hhas] using hw
    · simpa [after, Audit.stamp, Action.changeHeap, hhas] using refl_of R w
  have hupdated : Keeps R (do
      Audit.stamp r h "updated" (.dateTime now)
      Audit.stamp r h "updated_by" (.text user)) :=
    (hstamp (by decide) _).bind fun _ => hstamp (by decide) _
  unfold Audit.stamps
  cases isNew with
  | true =>
    exact (hstamp (by decide) _).bind fun _ => (hstamp (by decide) _).bind fun _ => hupdated
  | false => exact hupdated

end

/-- What is stored and what is bound is kept in the world. -/
structure KeptInWorld (e : Engine) (newId : Nat → String) : Prop where
  persistence : e.persistence = .inMemory newId
  externalIds : e.externalIds = .inMemory

/-- The collaborators that are kept in the world, which is all that they change; and custom writers
and the audit change objects only. -/
structure InMemory (e : Engine) (newId : Nat → String) : Prop extends e.KeptInWorld newId where
  writers : ∀ entry ∈ e.custom.writers, ∀ h record f, Keeps e.ChangesObjects (entry.2 h record f)
  audit : ∀ audit, e.audit? = some audit → ∀ h isNew, Keeps e.ChangesObjects (audit h isNew)

namespace InMemory

variable {newId : Nat → String} (hmemory : e.InMemory newId)

include hmemory

theorem keeps_writeEntry (record : Record) (h : Handle) (f : Field) :
    Keeps e.ChangesObjects (e.writeEntry record h f) :=
  keeps_writeEntry_of (fun _ _ hlearns => hlearns.toChangesObjects)
    (fun _ _ value => keeps_assign h f.property value)
    fun _ entry hentry => hmemory.writers entry hentry h record f

theorem keeps_writeOnto (record : Record) (h : Handle) (isNew : Bool) (fields : List Field) :
    Keeps e.ChangesObjects (e.writeOnto record h isNew fields) :=
  keeps_writeOnto_of (fun f _ => hmemory.keeps_writeEntry record h f)
    fun audit haudit => hmemory.audit audit haudit h isNew

end InMemory

theorem keeps_stamps (r : Registry) (user : String) (now : Calendar.DateTime) (h : Handle)
    (isNew : Bool) : Keeps e.ChangesObjects (Audit.stamps r user now h isNew) :=
  keeps_stamps_of (fun _ _ _ => keeps_changeHeap fun _ _ hset =>
    Registry.length_of_setProperty hset) user now isNew

theorem InMemory.of_stamps {newId : Nat → String} (hpersistence : e.persistence = .inMemory newId)
    (hexternalIds : e.externalIds = .inMemory) (hwriters : e.custom.writers = []) {r : Registry}
    {user : String} {now : Calendar.DateTime} (haudit : e.audit? = some (.stamps r user now)) :
    e.InMemory newId where
  persistence := hpersistence
  externalIds := hexternalIds
  writers entry hentry := by simp [hwriters] at hentry
  audit audit hsome h isNew := by
    obtain rfl := Option.some.inj (haudit.symm.trans hsome)
    exact keeps_stamps r user now h isNew

theorem sample_inMemory : Sample.engine.InMemory numberedId :=
  .of_stamps rfl rfl rfl rfl

end Engine

end Fieldwise
