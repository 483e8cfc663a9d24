import Fieldwise.Faults
import Fieldwise.Proofs.ExternalId.Translated
import Fieldwise.Proofs.Service.Calls

/-!
What faults of collaborators can do to a call. A fault only ever ends it: as long as constants are
spared, a call that succeeds in spite of faults comes to what it comes to without any. Constants are
another matter, since a field that cannot be read is null and the call goes on.
-/

namespace Fieldwise

variable {σ α β : Type}

/-- Where the first computation succeeds, the second one does the same. -/
def Curbs (x y : EStateM Failure σ α) : Prop := ∀ s a s', x s = .ok a s' → y s = .ok a s'

namespace Curbs

variable {x y : EStateM Failure σ α}

protected theorem refl (x : EStateM Failure σ α) : Curbs x x := fun _ _ _ h => h

theorem bind {k l : α → EStateM Failure σ β} (h : Curbs x y) (hk : ∀ a, Curbs (k a) (l a)) :
    Curbs (x >>= k) (y >>= l) := by
  intro s b s' hx
  obtain ⟨a, s₁, ha, hb⟩ := bind_eq_ok.mp hx
  exact bind_eq_ok.mpr ⟨a, s₁, h s a s₁ ha, hk a s₁ b s' hb⟩

theorem map {k : α → β} (h : Curbs x y) : Curbs (k <$> x) (k <$> y) := by
  rw [map_eq_pure_bind, map_eq_pure_bind]
  exact h.bind fun a => .refl _

theorem forM {items : List β} {f g : β → EStateM Failure σ Unit} (h : ∀ b, Curbs (f b) (g b)) :
    Curbs (items.forM f) (items.forM g) := by
  induction items with
  | nil => exact .refl _
  | cons b rest ih => exact (h b).bind fun _ => ih

theorem observe {look look' : World → Except Error α}
    (h : ∀ w a, look w = .ok a → look' w = .ok a) :
    Curbs (Action.observe look) (Action.observe look') := by
  intro w a w' hlook
  obtain ⟨ha, rfl⟩ := Action.lift_eq_ok.mp hlook
  exact Action.lift_eq_ok.mpr ⟨h _ _ ha, rfl⟩

theorem within {x y : Action α} (h : Curbs x y) (context : String) :
    Curbs (x.within context) (y.within context) := by
  intro w a w' hx
  unfold Action.within at hx ⊢
  cases hxw : x w with
  | ok b w₁ =>
    rw [hxw] at hx
    cases hx
    rw [h _ _ _ hxw]
  | error failure w₁ =>
    rw [hxw] at hx
    cases failure <;> cases hx

end Curbs

namespace Faults

theorem curbs_refuse (fails : Bool) (reason : String) (x : Action α) :
    Curbs (Action.lift (refuse fails reason) >>= fun _ => x) x := by
  cases fails with
  | true => exact fun _ _ _ h => nomatch h
  | false => exact .refl x

theorem refuse_bind_cases (fails : Bool) (reason : String) (answer : Except Error α) :
    (∃ error, (refuse fails reason >>= fun _ => answer) = .error error) ∨
      (refuse fails reason >>= fun _ => answer) = answer := by
  cases fails with
  | true => exact .inl ⟨_, rfl⟩
  | false => exact .inr rfl

theorem constants_of_spared {f : Faults} (hspared : f.constant = []) (c : Constants) :
    f.constants c = c := by
  funext id
  unfold constants
  rw [hspared]
  rfl

end Faults

namespace Engine

/-- The engine over collaborators that fail. -/
def withFaults (e : Engine) (f : Faults) : Engine := { e with
  persistence := f.persistence e.persistence
  externalIds := f.externalIds e.externalIds
  constants := f.constants e.constants
  audit? := e.audit?.map f.hook }

end Engine

/-! ### Translation -/

namespace Translation

variable {e : Engine} {f : Faults} {w : World}

theorem lookup_withFaults_cases (e : Engine) (f : Faults) (w : World) (table x : String) :
    (∃ error, lookup (e.withFaults f) w table x = .error error) ∨
      lookup (e.withFaults f) w table x = lookup e w table x := by
  have hanswer := Faults.refuse_bind_cases (f.resolve.contains x)
    s!"lookup of {table} {x} failed" (e.externalIds.resolve table x w)
  rcases hanswer with ⟨error, herror⟩ | hsame
  · refine .inl ⟨error, ?_⟩
    unfold lookup
    exact congrArg (· >>= _) herror
  · refine .inr ?_
    unfold lookup
    exact congrArg (· >>= _) hsame

theorem ofText_withFaults {field table s : String} {t : Translation}
    (h : (ofText (e.withFaults f) w field table s t).2.error? = none) :
    ofText (e.withFaults f) w field table s t = ofText e w field table s t := by
  unfold ofText at h ⊢
  split at h
  · next hskip => rw [if_pos hskip, if_pos hskip]
  · next hskip =>
    rw [if_neg hskip, if_neg hskip]
    rcases lookup_withFaults_cases e f w table s with ⟨error, herror⟩ | hsame
    · simp [herror] at h
    · rw [hsame]

mutual

theorem ofValue_withFaults (field table : String) {t : Translation} :
    ∀ v, (ofValue (e.withFaults f) w field table t v).2.error? = none →
      ofValue (e.withFaults f) w field table t v = ofValue e w field table t v
  | .text s, h => by
    unfold ofValue at h ⊢
    rw [ofText_withFaults h]
  | .object fields, h => by
    unfold ofValue at h ⊢
    split at h
    · rw [ofText_withFaults h]
    · rfl
  | .array items, h => by
    unfold ofValue at h ⊢
    rw [ofItems_withFaults field table items h]
  | .null, _ | .boolean _, _ | .number _, _ => rfl

/-- No item before the last one can have failed. -/
theorem ofItems_withFaults (field table : String) {t : Translation} :
    ∀ items, (ofItems (e.withFaults f) w field table t items).2.error? = none →
      ofItems (e.withFaults f) w field table t items = ofItems e w field table t items
  | [], _ => rfl
  | v :: rest, h => by
    unfold ofItems at h ⊢
    have hv := ofValue_withFaults field table v
      (((accumulates_continues (e.withFaults f) w).ofItems field table _ rest).2 h)
    have hrest := ofItems_withFaults field table rest h
    rw [hv] at hrest ⊢
    dsimp only
    rw [hrest]

end

theorem ofField_withFaults {field : Field} {state : Record × Translation}
    (h : (ofField (e.withFaults f) w field state).2.error? = none) :
    ofField (e.withFaults f) w field state = ofField e w field state := by
  obtain ⟨record, t⟩ := state
  have hrelated : (e.withFaults f).related? field = e.related? field := rfl
  simp only [ofField, hrelated] at h ⊢
  split at h
  · rw [ofValue_withFaults _ _ _ h]
  · rfl

theorem ofFields_withFaults {fields : List Field} {state : Record × Translation}
    (h : (fields.foldl (fun state g => ofField (e.withFaults f) w g state) state).2.error? = none) :
    fields.foldl (fun state g => ofField (e.withFaults f) w g state) state =
      fields.foldl (fun state g => ofField e w g state) state := by
  induction fields generalizing state with
  | nil => rfl
  | cons g rest ih =>
    have hg := ((accumulates_continues (e.withFaults f) w).ofFields rest _).2 h
    rw [List.foldl_cons, List.foldl_cons, ← ofField_withFaults hg]
    exact ih h

theorem ofOwnId_withFaults {table : String} {record : Record}
    (h : (ofOwnId (e.withFaults f) w table record).2.error? = none) :
    ofOwnId (e.withFaults f) w table record = ofOwnId e w table record := by
  unfold ofOwnId at h ⊢
  split at h
  · rw [ofText_withFaults h]
  · rfl

theorem translate_withFaults {entity : Entity} {record : Record}
    (h : ((e.withFaults f).translate w entity record).2.error? = none) :
    (e.withFaults f).translate w entity record = e.translate w entity record := by
  have hown := ofOwnId_withFaults ((continues_translate _ w entity record).2 h)
  unfold Engine.translate at h ⊢
  rw [ofFields_withFaults h, hown]

end Translation

namespace Engine

variable {e : Engine} {f : Faults}

/-! ### Looking up and writing -/

theorem curbs_internalId (table id : String) :
    Curbs ((e.withFaults f).internalId table id) (e.internalId table id) :=
  (Curbs.observe fun _ _ h => (except_seq_eq_ok.mp h).2).bind fun _ => .refl _

theorem curbs_load (typeName id : String) :
    Curbs (Action.observe ((e.withFaults f).persistence.load typeName id))
      (Action.observe (e.persistence.load typeName id)) :=
  Curbs.observe fun _ _ h => (except_seq_eq_ok.mp h).2

theorem curbs_lookUp (projection name id : String) :
    Curbs ((e.withFaults f).lookUp projection name id) (e.lookUp projection name id) :=
  (Curbs.refl _).bind fun entity => (Curbs.refl _).bind fun typeName =>
    (curbs_internalId entity.table id).bind fun id => (curbs_load typeName id).bind fun _ => .refl _

theorem curbs_translated (entity : Entity) (record : Record) :
    Curbs ((e.withFaults f).translated entity record) (e.translated entity record) := by
  intro w result w' h
  obtain ⟨rfl, rfl, herror⟩ := translated_eq_ok h
  have hsame := Translation.translate_withFaults herror
  simp [translated, bind_apply, ← hsame, herror]

theorem curbs_resolve (table typeName : String) (field : Field) (v : Json) :
    Curbs ((e.withFaults f).resolve table typeName field v) (e.resolve table typeName field v) := by
  unfold resolve
  split
  · exact (curbs_internalId table _).bind fun id => curbs_load typeName id
  · exact .refl _

theorem curbs_resolveAll (table typeName : String) (field : Field) (items : List Json) :
    Curbs ((e.withFaults f).resolveAll table typeName field items)
      (e.resolveAll table typeName field items) := by
  induction items with
  | nil => exact .refl _
  | cons v rest ih =>
    unfold resolveAll
    split
    · exact ih
    · exact (curbs_resolve table typeName field v).bind fun _ => ih.bind fun _ => .refl _

theorem curbs_assigned (field : Field) (v : Json) :
    Curbs ((e.withFaults f).assigned field v) (e.assigned field v) := by
  have hrelated : (e.withFaults f).related? field = e.related? field := rfl
  unfold assigned
  rw [hrelated]
  split
  · exact .refl _
  · split
    · refine (Curbs.refl _).bind fun typeName => ?_
      split
      · exact (curbs_resolveAll _ typeName field _).bind fun _ => .refl _
      · exact (curbs_resolve _ typeName field v).bind fun _ => .refl _
    · exact .refl _

theorem curbs_writeEntry (record : Record) (h : Handle) (field : Field) :
    Curbs ((e.withFaults f).writeEntry record h field) (e.writeEntry record h field) := by
  unfold writeEntry
  split
  · next v strategy _ _ =>
    cases strategy with
    | reference =>
      simp only [writeBy, writeReference_eq]
      exact (curbs_assigned field v).bind fun _ => .refl _
    | _ => exact .refl _
  · exact .refl _

theorem curbs_auditWritten (h : Handle) (isNew : Bool) :
    Curbs ((e.withFaults f).auditWritten h isNew) (e.auditWritten h isNew) := by
  unfold auditWritten
  simp only [withFaults]
  cases e.audit? with
  | none => exact .refl _
  | some audit =>
    refine (Curbs.refl _).bind fun w => ?_
    by_cases hauditable : e.registry.isAuditable (w.heap.get h).typeName = true
    · simp only [hauditable, if_true]
      exact Faults.curbs_refuse f.audit _ _
    · simp only [hauditable, Bool.false_eq_true, if_false]
      exact .refl _

theorem curbs_bindDeferrals (t : Translation) (h : Handle) :
    Curbs ((e.withFaults f).bindDeferrals t h) (e.bindDeferrals t h) := by
  unfold bindDeferrals
  split
  · exact .refl _
  · refine (Curbs.refl _).bind fun w => ?_
    split
    · exact (Curbs.forM fun d => Faults.curbs_refuse _ _ _).bind fun _ => .refl _
    · exact .refl _

/-! ### Calls -/

theorem curbs_prepare (c : Change) : Curbs ((e.withFaults f).prepare c) (e.prepare c) := by
  cases c with
  | create projection name record =>
    exact (Curbs.refl _).bind fun entity => (curbs_translated entity record).bind fun _ => .refl _
  | update projection name id record =>
    refine (curbs_lookUp projection name id).bind fun asked => ?_
    split
    · exact (curbs_translated asked.entity _).bind fun _ => .refl _
    · exact .refl _

theorem curbs_write (job : Job) : Curbs ((e.withFaults f).write job) (e.write job) :=
  (Curbs.forM fun field => curbs_writeEntry job.record job.target field).bind
    fun _ => curbs_auditWritten job.target job.isNew

variable (hspared : f.constant = [])

include hspared

theorem shown_withFaults (h : Handle) (entity : Entity) :
    (e.withFaults f).shown h entity = e.shown h entity := by
  have hread (w : World) (nested : Handle → Entity → Reading Record) (h : Handle) (field : Field)
      (s : Strategy) :
      (e.withFaults f).readBy nested w h field s = e.readBy nested w h field s := by
    cases s with
    | constant =>
      simp only [readBy, readConstant, withFaults, Faults.constants_of_spared hspared]
    | _ => rfl
  simp only [shown, toRecord_congr (hread _) rfl]

theorem curbs_finish (job : Job) : Curbs ((e.withFaults f).finish job) (e.finish job) := by
  unfold finish
  rw [shown_withFaults hspared]
  have hsave : Curbs (((e.withFaults f).persistence.save job.target).within job.task)
      ((e.persistence.save job.target).within job.task) :=
    (Faults.curbs_refuse f.save _ _).within job.task
  exact hsave.bind fun _ =>
    (curbs_bindDeferrals job.translation job.target).bind fun _ => .refl _

theorem curbs_run (c : Change) : Curbs ((e.withFaults f).run c) (e.run c) := by
  rw [run_eq_phases, run_eq_phases]
  exact (curbs_prepare c).bind fun job => (curbs_write job).bind fun _ => curbs_finish hspared job

theorem curbs_getRecord (projection name id : String) :
    Curbs ((e.withFaults f).getRecord projection name id) (e.getRecord projection name id) := by
  refine (curbs_lookUp projection name id).bind fun asked => ?_
  simp only [shown_withFaults hspared]
  exact .refl _

/-- However many calls succeed one after the other in spite of faults, they come to what they come
to without any. -/
theorem curbs_calls (calls : List Call) :
    Curbs (calls.forM (e.withFaults f).perform) (calls.forM e.perform) := by
  refine Curbs.forM fun c => ?_
  cases c with
  | get projection name id => exact (curbs_getRecord hspared projection name id).map
  | change c => exact (curbs_run hspared c).map

end Engine

end Fieldwise
