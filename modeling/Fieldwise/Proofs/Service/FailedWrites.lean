import Fieldwise.Proofs.Service.Calls

/-!
What a call that fails leaves behind. Nothing is taken back, so what is stored is as before just if
the call fails before it stores the object and has not written anything that shows until then.
-/

namespace Fieldwise

namespace World

/-- What is stored in the first world has the same properties in the second. -/
def SameProperties (r : Registry) (w w' : World) : Prop :=
  ∀ key h, w.store.get? key = some h → ∀ property,
    r.getProperty w'.heap h property = r.getProperty w.heap h property

/-- The same is stored, with the same properties, and bound. -/
structure SameStored (r : Registry) (w w' : World) : Prop where
  store : ∀ key, w'.store.get? key = w.store.get? key
  bindings : ∀ key, w'.bindings.get? key = w.bindings.get? key
  properties : SameProperties r w w'

end World

namespace Engine

variable {e : Engine} {w w₁ w₂ : World} {newId : Nat → String}

theorem AddsObjects.sameStored (h : e.AddsObjects w w₁) (hw : w.Sound) :
    World.SameStored e.registry w w₁ := by
  refine ⟨fun key => by rw [h.store], fun key => by rw [h.bindings], fun key g hg property => ?_⟩
  simp only [Registry.getProperty, Heap.get_of_extends h.heap (hw key g hg)]

/-- The writing comes to an error: the fields `done` have been written when the next one, or the
audit after the last one, fails. -/
inductive Breaks (e : Engine) (job : Job) (w₁ : World) : (done : List Field) → World → Prop
  | field {done rest : List Field} {f : Field} {w w₂ : World} {err : Error}
      (hfields : job.entity.fields = done ++ f :: rest)
      (hdone : done.forM (e.writeEntry job.record job.target) w₁ = .ok () w)
      (hfails : e.writeEntry job.record job.target f w = .error (.error err) w₂) :
      Breaks e job w₁ done w₂
  | audit {w w₂ : World} {err : Error}
      (hdone : job.entity.fields.forM (e.writeEntry job.record job.target) w₁ = .ok () w)
      (hfails : e.auditWritten job.target job.isNew w = .error (.error err) w₂) :
      Breaks e job w₁ job.entity.fields w₂

theorem exists_breaks_iff {job : Job} :
    (∃ done, e.Breaks job w₁ done w₂) ↔ ∃ err, e.write job w₁ = .error (.error err) w₂ := by
  simp only [write, writeOnto, bind_eq_error, forM_eq_error]
  constructor
  · rintro ⟨done, hbreaks⟩
    cases hbreaks with
    | field hfields hdone hfails => exact ⟨_, .inl ⟨_, _, _, _, hfields, hdone, hfails⟩⟩
    | audit hdone hfails => exact ⟨_, .inr ⟨(), _, hdone, hfails⟩⟩
  · rintro ⟨err, ⟨done, f, rest, w, hfields, hdone, hfails⟩ | ⟨u, w, hdone, hfails⟩⟩
    · exact ⟨done, .field hfields hdone hfails⟩
    · exact ⟨_, .audit hdone hfails⟩

/-- Reading stops for formats only: any other error in it concerns one field. -/
theorem readEntries_ne_error {nested : Handle → Entity → Reading Record} {h : Handle}
    {record : Record} {fields : List Field} {c c' : Context} {err : Error} :
    e.readEntries nested w h record fields c ≠ .error (.error err) c' := by
  induction fields generalizing record c with
  | nil => exact fun hread => nomatch hread
  | cons f rest ih =>
    intro hread
    rw [readEntries, bind_eq_error] at hread
    rcases hread with hentry | ⟨v, c₁, -, hrest⟩
    · unfold readEntry at hentry
      cases hstrategy : f.kind.strategy? with
      | none => simp [hstrategy] at hentry
      | some s =>
        simp only [hstrategy, Reading.orNull] at hentry
        split at hentry
        · cases hentry
        · rename_i hordinary
          exact hordinary _ _ hentry
    · exact ih hrest

theorem toRecord_ne_error {h : Handle} {entity : Entity} {err : Error} :
    e.toRecord w h entity ≠ .error (.error err) := by
  intro hrecord
  unfold toRecord at hrecord
  split at hrecord
  · cases hrecord
  · rename_i failure c' hread
    cases hrecord
    rcases bind_eq_error.mp hread with hvisit | ⟨_, c, -, hentries⟩
    · cases hvisit
    · exact readEntries_ne_error hentries

theorem shown_ne_error {h : Handle} {entity : Entity} {err : Error} :
    e.shown h entity w ≠ .error (.error err) w₁ := by
  intro hshown
  simp only [shown, bind_apply, get_apply] at hshown
  cases hrecord : e.toRecord w h entity with
  | ok record => simp [hrecord] at hshown
  | error failure =>
    simp only [hrecord, throw_apply] at hshown
    cases hshown
    exact toRecord_ne_error hrecord

/-- Once everything is written, only what is still to be bound can fail. -/
theorem KeptInWorld.finish_ne_error (hkept : e.KeptInWorld newId) {job : Job}
    (hjob : job.translation.deferrals = []) {err : Error} :
    e.finish job w ≠ .error (.error err) w₁ := by
  intro hfinish
  have hbind : e.bindDeferrals job.translation job.target = pure 0 := by
    simp [bindDeferrals, hjob]
  rw [finish, hkept.persistence, hbind, pure_bind] at hfinish
  rcases bind_eq_error.mp hfinish with hsave | ⟨_, w', -, hshown⟩
  · cases hsave
  · exact shown_ne_error hshown

/-- If something fails after that, the object has been stored, and it is a new one. -/
theorem KeptInWorld.stored_of_finish_error (hkept : e.KeptInWorld newId) {c : Change} {job : Job}
    (hprepare : e.prepare c w = .ok job w₁) {w₃ : World} {err : Error}
    (hfinish : e.finish job w₂ = .error (.error err) w₃) :
    job.target = w.heap.length ∧ ∃ key, w₃.store.get? key = some job.target := by
  obtain ⟨-, hjob⟩ := hkept.prepare_eq_ok hprepare
  split at hjob
  · refine ⟨hjob.1, ?_⟩
    obtain ⟨key, heap, issued, -, hsave⟩ := w₂.save_eq newId job.target
    have hstored := hkept.after_finish job w₂
    rw [after_of_error hfinish, hsave] at hstored
    exact ⟨key, by rw [hstored]; simp⟩
  · exact (hkept.finish_ne_error hjob.1 hfinish).elim

/-- A call that fails leaves what is stored as it was just if it fails before it has written
anything, or while writing and with no property of a stored object different by then. Failing when
the object is stored already leaves that object stored. -/
theorem failed_change_sameStored_iff (e : Engine) (newId : Nat → String) (start w w' : World)
    (c : Change) (err : Error) (hmemory : e.InMemory newId) (hstart : start.Sound)
    (hreached : e.Reached start w) (hfails : e.run c w = .error (.error err) w') :
    World.SameStored e.registry w w' ↔
      ∀ job w₁, e.prepare c w = .ok job w₁ → ∃ done w₂, e.Breaks job w₁ done w₂ ∧
        World.SameProperties e.registry w w₂ := by
  have hw : w.Sound := hmemory.reached_sound hstart hreached
  rw [run_eq_phases] at hfails
  rcases bind_eq_error.mp hfails with hprepare | ⟨job, w₁, hprepare, hfails⟩
  · -- Nothing is written: there are at most new objects, and none of them is stored.
    have hadds : e.AddsObjects w w' := (e.keeps_prepare c).of_error hprepare
    refine iff_of_true (hadds.sameStored hw) fun job w₁ hjob => ?_
    rw [hprepare] at hjob
    cases hjob
  · have hadds : e.AddsObjects w w₁ := (e.keeps_prepare c).of_ok hprepare
    rcases bind_eq_error.mp hfails with hwrite | ⟨_, w₂, hwrite, hfinish⟩
    · -- The writing breaks: the store and the bindings are as before, so it is up to properties.
      have hchanges : e.ChangesObjects w₁ w' := (hmemory.keeps_write job).of_error hwrite
      constructor
      · intro hsame job' w₁' hjob
        rw [hprepare] at hjob
        cases hjob
        obtain ⟨done, hbreaks⟩ := exists_breaks_iff.mpr ⟨err, hwrite⟩
        exact ⟨done, w', hbreaks, hsame.properties⟩
      · intro hsame
        obtain ⟨done, w₂, hbreaks, hproperties⟩ := hsame job w₁ hprepare
        obtain ⟨err', hwrite'⟩ := exists_breaks_iff.mp ⟨done, hbreaks⟩
        rw [hwrite] at hwrite'
        cases hwrite'
        exact ⟨fun key => by rw [hchanges.store, hadds.store],
          fun key => by rw [hchanges.bindings, hadds.bindings], hproperties⟩
    · -- Everything is written, and the new object is stored, which no object was at its place.
      obtain ⟨htarget, key, hkey⟩ := hmemory.stored_of_finish_error hprepare hfinish
      refine iff_of_false (fun hsame => ?_) fun hsame => ?_
      · rw [hsame.store key] at hkey
        exact Nat.ne_of_lt (hw key _ hkey) htarget
      · obtain ⟨done, w₃, hbreaks, -⟩ := hsame job w₁ hprepare
        obtain ⟨err', hwrite'⟩ := exists_breaks_iff.mp ⟨done, hbreaks⟩
        rw [hwrite] at hwrite'
        cases hwrite'

def stocked : World :=
  after (Sample.engine.perform (.change (.create "sales" "Product" [("sku", .text "A100")])))
    World.empty

/-- The price is no number, but the field before it can be written. -/
def repricing : Change :=
  .update "sales" "Product" (numberedId 0) [("sku", .text "B200"), ("price", .text "abc")]

def textOf? (w : World) (h : Handle) (property : String) : Option String :=
  (Sample.engine.registry.getProperty w.heap h property).toOption.bind PropertyValue.text?

set_option maxRecDepth 4000 in
theorem error_repricing : error? (Sample.engine.run repricing) stocked =
    some (.typeMismatch "price" "decimal" "string \"abc\"") := by
  decide +kernel

theorem repricing_sameStored_iff :
    let w' := after (Sample.engine.run repricing) stocked
    Sample.engine.run repricing stocked =
      .error (.error (.typeMismatch "price" "decimal" "string \"abc\"")) w' ∧
    (World.SameStored Sample.engine.registry stocked w' ↔
      ∀ job w₁, Sample.engine.prepare repricing stocked = .ok job w₁ →
        ∃ done w₂, Sample.engine.Breaks job w₁ done w₂ ∧
          World.SameProperties Sample.engine.registry stocked w₂) :=
  ⟨eq_error_of_error? error_repricing,
    failed_change_sameStored_iff Sample.engine numberedId World.empty stocked _ repricing _
      sample_inMemory World.empty_sound (.call _ .start) (eq_error_of_error? error_repricing)⟩

/-- The stored product has another number afterwards, though the call fails. -/
theorem repricing_changes_stored : Sample.engine.Reached World.empty stocked ∧
    ∃ err w', Sample.engine.run repricing stocked = .error (.error err) w' ∧
      ¬ World.SameStored Sample.engine.registry stocked w' := by
  refine ⟨.call _ .start, _, _, eq_error_of_error? error_repricing, fun hsame => ?_⟩
  have hstored : stocked.store.get? ("Product", numberedId 0) = some 0 := by decide +kernel
  have hbefore : textOf? stocked 0 "sku" = some "A100" := by decide +kernel
  have hafter : textOf? (after (Sample.engine.run repricing) stocked) 0 "sku" = some "B200" := by
    decide +kernel
  have hsku := hsame.properties _ 0 hstored "sku"
  rw [textOf?, hsku] at hafter
  rw [textOf?, hafter] at hbefore
  exact absurd hbefore (by decide)

end Engine

end Fieldwise
