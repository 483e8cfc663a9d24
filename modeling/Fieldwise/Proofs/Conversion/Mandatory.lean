import Fieldwise.Proofs.Registry.Lawful
import Fieldwise.Proofs.Service.Frame

/-!
Which errors a step can come to, and that only one step refuses a record because a mandatory field
has no value in it: the check before the first write. All else only passes on the errors of those
that it asks, or makes errors of other kinds.
-/

namespace Fieldwise

variable {α β : Type}

/-- The record has no value under the name. -/
def Record.lacks (record : Record) (name : String) : Bool := (record.get? name).all Json.isNull

/-- A record is refused because a mandatory field has no value in it. -/
def Error.refuses : Error → Bool
  | missingMandatoryField .. => true
  | _ => false

/-- If there is an error, it is as `P` says. -/
def Errs (P : Error → Prop) (result : Except Error α) : Prop := ∀ err, result = .error err → P err

namespace Errs

variable {P : Error → Prop} {result : Except Error α}

theorem ok (a : α) : Errs P (.ok a) := nofun

theorem error {err : Error} (h : P err) : Errs P (.error err : Except Error α) := by
  rintro _ ⟨⟩
  exact h

theorem bind {k : α → Except Error β} (h : Errs P result)
    (hk : ∀ a, result = .ok a → Errs P (k a)) : Errs P (result >>= k) := by
  cases result with
  | ok a => exact hk a rfl
  | error err => exact .error (h err rfl)

end Errs

namespace Action

/-- Wherever the action starts, its ordinary errors are as `P` says. -/
def Errs (P : Error → Prop) (x : Action α) : Prop :=
  ∀ w err w', x w = .error (.error err) w' → P err

namespace Errs

variable {P : Error → Prop} {x : Action α}

theorem pure (a : α) : Errs P (pure a : Action α) := nofun

theorem get : Errs P (get : Action World) := nofun

theorem modify (f : World → World) : Errs P (modify f : Action Unit) := nofun

theorem fail {err : Error} (h : P err) : Errs P (fail err : Action α) := by
  rintro w _ _ ⟨⟩
  exact h

theorem lift {result : Except Error α} (h : Fieldwise.Errs P result) : Errs P (lift result) := by
  intro w err w' herror
  cases result with
  | ok a => cases herror
  | error err' =>
    cases herror
    exact h _ rfl

theorem observe {look : World → Except Error α} (h : ∀ w, Fieldwise.Errs P (look w)) :
    Errs P (observe look) :=
  fun w => lift (h w) w

theorem changeHeap {change : Heap → Except Error Heap}
    (h : ∀ heap, Fieldwise.Errs P (change heap)) : Errs P (changeHeap change) := by
  intro w err w' herror
  unfold Action.changeHeap at herror
  split at herror
  · cases herror
  · next err' herr =>
    cases herror
    exact h _ _ herr

theorem bind {k : α → Action β} (h : Errs P x) (hk : ∀ a, Errs P (k a)) : Errs P (x >>= k) := by
  intro w err w' herror
  rcases bind_eq_error.mp herror with herror | ⟨a, w₁, -, herror⟩
  · exact h _ _ _ herror
  · exact hk a _ _ _ herror

theorem forM {f : α → Action Unit} {items : List α} (h : ∀ a ∈ items, Errs P (f a)) :
    Errs P (items.forM f) := by
  induction items with
  | nil => exact pure ()
  | cons a rest ih =>
    rw [forM_cons_apply]
    exact (h a (by simp)).bind fun _ => ih fun b hb => h b (by simp [hb])

theorem within {context : String} (h : ∀ err : Error, P (err.within context)) :
    Errs P (within context x) := by
  intro w err w' herror
  unfold Action.within at herror
  split at herror
  · cases herror
    exact h _
  · next hother => exact absurd herror (hother _ _)

end Errs

end Action

/-- The errors that do not refuse a record. -/
abbrev Error.Passes (err : Error) : Prop := err.refuses = false

namespace Action

/-- From there, the action refuses a record of the entity for want of the field. -/
def Refuses (entity field : String) (x : Action α) (w : World) : Prop :=
  ∃ w', x w = .error (.error (.missingMandatoryField entity field)) w'

variable {entity field : String} {x : Action α} {k : α → Action β} {w : World}

theorem Errs.not_refuses (h : Errs Error.Passes x) : ¬ Refuses entity field x w :=
  fun ⟨_, hrefuses⟩ => nomatch h _ _ _ hrefuses

theorem refuses_bind : Refuses entity field (x >>= k) w ↔
    Refuses entity field x w ∨ ∃ a w₁, x w = .ok a w₁ ∧ Refuses entity field (k a) w₁ := by
  simp only [Refuses, bind_eq_error, exists_or]
  refine or_congr_right ⟨?_, ?_⟩
  · rintro ⟨w', a, w₁, hx, hk⟩
    exact ⟨a, w₁, hx, w', hk⟩
  · rintro ⟨a, w₁, hx, w', hk⟩
    exact ⟨w', a, w₁, hx, hk⟩

theorem refuses_bind_of_passes (hx : Errs Error.Passes x) : Refuses entity field (x >>= k) w ↔
    ∃ a w₁, x w = .ok a w₁ ∧ Refuses entity field (k a) w₁ := by
  rw [refuses_bind, or_iff_right hx.not_refuses]

theorem refuses_bind_of_passes_after (hk : ∀ a, Errs Error.Passes (k a)) :
    Refuses entity field (x >>= k) w ↔ Refuses entity field x w := by
  rw [refuses_bind, or_iff_left]
  rintro ⟨a, w₁, -, hrefuses⟩
  exact (hk a).not_refuses hrefuses

end Action

/-! ### Properties and their values -/

namespace Registry

/-- No accessor refuses a record. -/
def Passes (r : Registry) : Prop :=
  ∀ typeName property a, r.accessor typeName property = .ok a →
    (∀ o, Errs Error.Passes (a.get o)) ∧ ∀ v o, Errs Error.Passes (a.set v o)

variable {r : Registry}

theorem passes_accessor (typeName property : String) :
    Errs Error.Passes (r.accessor typeName property) := by
  unfold accessor
  split
  · exact .error rfl
  · split
    · exact .error rfl
    · exact .ok _

theorem passes_declaredAlong (typeName : String) (properties : List String) :
    Errs Error.Passes (r.declaredAlong typeName properties) := by
  induction properties generalizing typeName with
  | nil => exact .error rfl
  | cons property rest ih =>
    cases rest with
    | nil => exact (passes_accessor _ _).bind fun a _ => .ok _
    | cons next rest =>
      refine (passes_accessor _ _).bind fun a _ => ?_
      split
      · exact ih _
      · exact .error rfl

section

variable (hr : r.Passes)

include hr

theorem Passes.getProperty (heap : Heap) (h : Handle) (property : String) :
    Errs Error.Passes (r.getProperty heap h property) :=
  (passes_accessor _ _).bind fun a ha => (hr _ _ a ha).1 _

theorem Passes.setProperty (heap : Heap) (h : Handle) (property : String) (v : PropertyValue) :
    Errs Error.Passes (r.setProperty heap h property v) :=
  (passes_accessor _ _).bind fun a ha => ((hr _ _ a ha).2 v _).bind fun _ _ => .ok _

theorem Passes.follow (heap : Heap) (h : Handle) (properties : List String) :
    Errs Error.Passes (r.follow heap h properties) := by
  induction properties generalizing h with
  | nil => exact .ok _
  | cons property rest ih =>
    cases rest with
    | nil => exact hr.getProperty _ _ _
    | cons next rest =>
      refine (hr.getProperty _ _ _).bind fun v _ => ?_
      split
      · exact ih _
      · exact .ok _
      · exact .error rfl

theorem Passes.setPath (heap : Heap) (h : Handle) (path : String) (v : PropertyValue) :
    Errs Error.Passes (r.setPath heap h path v) := by
  unfold Registry.setPath
  split
  · exact hr.setProperty _ _ _ _
  · refine (hr.follow _ _ _).bind fun u _ => ?_
    split
    · exact hr.setProperty _ _ _ _
    · split
      · exact .ok _
      · exact .error rfl
    · exact .error rfl

end

theorem passes_of_definitions {ds : List TypeDefinition}
    (hr : r.types = ds.map fun d => (d.name, d.entityType)) : r.Passes := by
  intro typeName property a ha
  obtain ⟨d, -, -, p, -, -, rfl⟩ := accessor_of_definitions hr ha
  refine ⟨fun o => ?_, fun v o => ?_⟩
  · simp only [PropertyDefinition.accessor]
    split
    · exact .ok _
    · exact .error rfl
  · simp only [Accessor.set, PropertyDefinition.accessor]
    split
    · next set hset =>
      obtain ⟨-, rfl⟩ : p.readOnly = false ∧ _ := by simpa using hset
      dsimp only
      split
      · exact .ok _
      · exact .error rfl
    · exact .error rfl

end Registry

theorem passes_coerce (settings : Settings) (property : String) (type : PropertyType) (v : Json) :
    Errs Error.Passes (coerce settings property type v) := by
  unfold coerce
  split
  · exact .ok _
  · split
    · exact .ok _
    · exact .error rfl

/-! ### Writing -/

namespace Engine

/-- Nobody who is asked refuses a record: that is left to the engine. What persistence has to say
when it saves an object does not matter, since it is told from further out. -/
structure RefusesAlone (e : Engine) : Prop where
  registry : e.registry.Passes
  load : ∀ typeName id w, Errs Error.Passes (e.persistence.load typeName id w)
  resolve : ∀ table externalId w, Errs Error.Passes (e.externalIds.resolve table externalId w)
  bind : ∀ table externalId id, Action.Errs Error.Passes (e.externalIds.bind table externalId id)
  tableTypes : ∀ table, Errs Error.Passes (e.tableTypes table)
  writers : ∀ entry ∈ e.custom.writers, ∀ h record f, Action.Errs Error.Passes (entry.2 h record f)
  audit : ∀ audit, e.audit? = some audit → ∀ h isNew, Action.Errs Error.Passes (audit h isNew)

namespace RefusesAlone

variable {e : Engine} (he : e.RefusesAlone)

include he

theorem passes_typeOfTable (table : String) : Action.Errs Error.Passes (e.typeOfTable table) := by
  refine .bind .get fun w => ?_
  split
  · exact .pure _
  · refine .bind (.modify _) fun _ => .bind (.lift (he.tableTypes table)) fun answer => ?_
    split
    · exact .bind (.modify _) fun _ => .pure _
    · exact .fail rfl

theorem passes_instantiate (entity : Entity) :
    Action.Errs Error.Passes (e.instantiate entity) := by
  refine .bind (he.passes_typeOfTable _) fun name => ?_
  split
  · exact nofun
  · exact .fail rfl

theorem passes_internalId (table id : String) :
    Action.Errs Error.Passes (e.internalId table id) :=
  .bind (.observe fun w => he.resolve _ _ w) fun _ => .pure _

theorem passes_resolve (table typeName : String) (f : Field) (v : Json) :
    Action.Errs Error.Passes (e.resolve table typeName f v) := by
  unfold Engine.resolve
  split
  · exact .bind (he.passes_internalId _ _) fun id => .observe fun w => he.load _ _ w
  · exact .fail rfl

theorem passes_resolveAll (table typeName : String) (f : Field) (items : List Json) :
    Action.Errs Error.Passes (e.resolveAll table typeName f items) := by
  induction items with
  | nil => exact .pure _
  | cons v rest ih =>
    unfold resolveAll
    split
    · exact ih
    · exact .bind (he.passes_resolve _ _ _ _) fun _ => .bind ih fun _ => .pure _

theorem passes_assigned (f : Field) (v : Json) :
    Action.Errs Error.Passes (e.assigned f v) := by
  unfold assigned
  split
  · exact .pure _
  · split
    · refine .bind (he.passes_typeOfTable _) fun typeName => ?_
      split
      · exact .bind (he.passes_resolveAll _ _ _ _) fun _ => .pure _
      · exact .bind (he.passes_resolve _ _ _ _) fun _ => .pure _
    · exact .pure _

theorem passes_writeEntry (record : Record) (h : Handle) (f : Field) :
    Action.Errs Error.Passes (e.writeEntry record h f) := by
  unfold writeEntry
  split
  · next v strategy _ _ =>
    cases strategy with
    | direct =>
      rw [writeBy, writeDirect]
      refine .changeHeap fun heap => ?_
      refine (Registry.passes_declaredAlong _ _).bind fun type _ => ?_
      exact (passes_coerce _ _ _ _).bind fun value _ => he.registry.setPath _ _ _ _
    | reference =>
      rw [writeBy, writeReference_eq]
      refine .bind (he.passes_assigned f v) fun value => ?_
      split
      · exact .changeHeap fun heap => he.registry.setPath _ _ _ _
      · exact .pure _
    | custom =>
      simp only [writeBy, writeCustom]
      split
      · next write hwrite => exact he.writers _ (Table.mem_of_get? hwrite) _ _ _
      · exact .pure _
    | constant => exact .pure _
    | path => exact .pure _
  · exact .pure _

theorem passes_writeOnto (record : Record) (h : Handle) (isNew : Bool) (fields : List Field) :
    Action.Errs Error.Passes (e.writeOnto record h isNew fields) := by
  refine .bind (.forM fun f _ => he.passes_writeEntry record h f) fun _ => ?_
  unfold auditWritten
  split
  · next audit haudit =>
    refine .bind .get fun w => ?_
    split
    · exact he.audit audit haudit _ _
    · exact .pure _
  · exact .pure _

/-- Before anything is written, the first mandatory field that has no value is told. -/
theorem target_refuses_iff {record : Record} {existing : Option Handle} {entity : Entity}
    {fields : List Field} {w : World} {name field : String} :
    Action.Refuses name field (e.target record existing entity fields) w ↔
      ∃ f, missingField? fields record = some f ∧ entity.name = name ∧ f.name = field := by
  unfold target
  constructor
  · rintro ⟨w', htarget⟩
    cases hmissing : missingField? fields record with
    | some f =>
      rw [hmissing] at htarget
      cases htarget
      exact ⟨f, rfl, rfl, rfl⟩
    | none =>
      rw [hmissing] at htarget
      cases existing with
      | some h => cases htarget
      | none => cases he.passes_instantiate entity _ _ _ htarget
  · rintro ⟨f, hmissing, rfl, rfl⟩
    rw [hmissing]
    exact ⟨w, rfl⟩

end RefusesAlone

theorem passes_stamps {r : Registry} (hr : r.Passes) (user : String) (now : Calendar.DateTime)
    (h : Handle) (isNew : Bool) : Action.Errs Error.Passes (Audit.stamps r user now h isNew) := by
  have hstamp (property : String) (v : PropertyValue) :
      Action.Errs Error.Passes (Audit.stamp r h property v) := by
    refine .changeHeap fun heap => ?_
    split
    · exact hr.setProperty _ _ _ _
    · exact .ok _
  have hupdated := (hstamp "updated" (.dateTime now)).bind fun _ =>
    hstamp "updated_by" (.text user)
  unfold Audit.stamps
  cases isNew with
  | true => exact (hstamp _ _).bind fun _ => (hstamp _ _).bind fun _ => hupdated
  | false => exact hupdated

theorem RefusesAlone.of_stamps {e : Engine} {newId : Nat → String} {r : Registry} {user : String}
    {now : Calendar.DateTime} (hregistry : e.registry.Passes)
    (hpersistence : e.persistence = .inMemory newId) (hexternalIds : e.externalIds = .inMemory)
    (htypes : e.tableTypes = .ofRegistry e.registry) (hwriters : e.custom.writers = [])
    (hr : r.Passes) (haudit : e.audit? = some (.stamps r user now)) : e.RefusesAlone where
  registry := hregistry
  load _ _ _ := by
    rw [hpersistence]
    exact .ok _
  resolve _ _ _ := by
    rw [hexternalIds]
    exact .ok _
  bind _ _ _ := by
    rw [hexternalIds]
    exact nofun
  tableTypes _ := by
    rw [htypes]
    exact .ok _
  writers entry hentry := by simp [hwriters] at hentry
  audit audit hsome h isNew := by
    obtain rfl := Option.some.inj (haudit.symm.trans hsome)
    exact passes_stamps hr user now h isNew

end Engine

end Fieldwise
