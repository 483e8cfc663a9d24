import Fieldwise.Proofs.Reading.Entries

/-!
Readers that only look. With such readers active reading is the reading of the engine, so that what
holds of the one holds of the other.
-/

namespace Fieldwise

namespace ActiveReading

theorem now_bind {α β : Type} (x : World → Reading α) (k : α → World → Reading β) :
    (now x >>= fun a => now (k a)) = now fun w => x w >>= fun a => k a w := by
  funext s
  rw [bind_apply, now_apply, now_apply, bind_apply]
  cases x s.1 s.2 <;> rfl

theorem now_map {α β : Type} (k : α → β) (x : World → Reading α) :
    k <$> now x = now fun w => k <$> x w := by
  funext s
  rw [map_apply, now_apply, now_apply, map_apply]
  cases x s.1 s.2 <;> rfl

theorem now_mapM {α β : Type} (f : World → α → Reading β) (items : List α) :
    (items.mapM fun a => now fun w => f w a) = now fun w => items.mapM (f w) := by
  induction items with
  | nil => rfl
  | cons item rest ih =>
    simp only [List.mapM_cons, ih]
    rw [← now_bind]
    congr 1
    funext b
    exact now_bind (fun w => rest.mapM (f w)) fun bs _ => pure (b :: bs)

theorem now_orNull (x : World → Reading Json) :
    (now x).orNull = now fun w => (x w).orNull := by
  funext s
  unfold orNull
  rw [now_apply, now_apply]
  unfold Reading.orNull
  cases x s.1 s.2 with
  | ok v c => rfl
  | error failure c => cases failure <;> rfl

end ActiveReading

namespace Engine

open ActiveReading

variable {e : Engine} {nested : World → Handle → Entity → Reading Record}

theorem active_reader? (qualifier : String) :
    e.active.readers.get? qualifier = (e.custom.reader? qualifier).map .looking :=
  Table.get?_map _ _ _

theorem active_steady (e : Engine) {w : World} (hclosed : w.heap.Closed e.registry) :
    e.active.Steady (· = w) where
  closed _ h := h ▸ hclosed
  keeps qualifier read hread h f c w' hw' _ := by
    rw [active_reader?] at hread
    obtain ⟨look, -, rfl⟩ := Option.map_eq_some_iff.mp hread
    exact ⟨hw', .refl _⟩

theorem active_readCustom (h : Handle) (f : Field) :
    e.active.readCustom h f = now fun w => e.readCustom w h f := by
  funext s
  simp only [ActiveEngine.readCustom, readCustom, now, active_reader?]
  cases e.custom.reader? (f.qualifier.getD "") with
  | none => rfl
  | some look =>
    simp only [Option.map_some, ActiveReader.looking, bind_apply, get_apply, Reading.lift]
    cases look s.1 h f s.2 <;> rfl

theorem active_readRelated (f : Field) (h : Handle) :
    e.active.readRelated (fun h entity => now fun w => nested w h entity) f h =
      now fun w => e.readRelated (nested w) w f h := by
  funext s
  rw [now_apply]
  have hrelated : e.active.related? f = e.related? f := rfl
  unfold ActiveEngine.readRelated readRelated
  rw [bind_apply, bind_apply, get_apply, get_apply, hrelated]
  dsimp only
  split
  · rfl
  · cases e.related? f with
    | none => rfl
    | some entity => exact congrFun (now_map Json.object fun w => nested w h entity) s

theorem active_readItem (f : Field) (item : PropertyValue) :
    e.active.readItem (fun h entity => now fun w => nested w h entity) f item =
      now fun w => e.readItem (nested w) w f item := by
  cases item with
  | reference h => exact active_readRelated f h
  | _ => rfl

theorem active_readReference (h : Handle) (f : Field) :
    e.active.readReference (fun h entity => now fun w => nested w h entity) h f =
      now fun w => e.readReference (nested w) w h f := by
  unfold ActiveEngine.readReference readReference
  rw [← now_bind]
  congr 1
  funext v
  cases v with
  | reference g => exact active_readRelated f g
  | list items =>
    dsimp only
    rw [← now_map, ← now_mapM]
    congr 2
    funext item
    exact active_readItem f item
  | _ => rfl

theorem active_readEntry (h : Handle) (f : Field) :
    e.active.readEntry (fun h entity => now fun w => nested w h entity) h f =
      now fun w => e.readEntry (nested w) w h f := by
  unfold ActiveEngine.readEntry readEntry
  cases f.kind.strategy? with
  | none => rfl
  | some strategy =>
    dsimp only
    rw [← now_orNull]
    congr 1
    cases strategy with
    | custom => exact active_readCustom h f
    | reference => exact active_readReference h f
    | _ => rfl

theorem active_readEntries (h : Handle) (record : Record) (fields : List Field) :
    e.active.readEntries (fun h entity => now fun w => nested w h entity) h record fields =
      now fun w => e.readEntries (nested w) w h record fields := by
  induction fields generalizing record with
  | nil => rfl
  | cons f rest ih =>
    unfold ActiveEngine.readEntries readEntries
    rw [← now_bind, active_readEntry]
    congr 1
    funext v
    exact ih _

/-- With the readers of an engine, which only look, active reading is the reading of the engine. -/
theorem active_readNested (e : Engine) (d : Nat) (h : Handle) (fields : List Field) :
    e.active.readNested d h fields = now fun w => e.readNested w d h fields := by
  induction d generalizing h fields with
  | zero => rfl
  | succ d ih =>
    have hnested : (fun h entity => e.active.readNested d h entity.fields) =
        fun h (entity : Entity) => now fun w => e.readNested w d h entity.fields := by
      funext h entity
      exact ih h entity.fields
    unfold ActiveEngine.readNested readNested
    rw [hnested, active_readEntries]
    rfl

theorem active_readRecord (e : Engine) (h : Handle) (fields : List Field) :
    e.active.readRecord h fields = now fun w => e.readRecord w h fields := by
  funext s
  exact congrFun (active_readNested e (depth s.1) h fields) s

/-- A record comes about with the default formats, and a field that refers to no object has the
value in it that it has alone, if it is the last of its name. -/
theorem readRecord_ok (hformats : e.settings.HasDefaultFormats) {w : World}
    (hclosed : w.heap.Closed e.registry) {h : Handle} (hh : h < w.heap.length)
    (fields : List Field) (c : Context) : ∃ record c', e.readRecord w h fields c = .ok record c' ∧
      ∀ before f rest, fields = before ++ f :: rest → f.name ∉ rest.map (·.name) →
        f.kind ≠ .reference → ∃ c₁, record.get? f.name = some (e.active.alone h f (w, c₁)) := by
  have hsteady := e.active_steady hclosed
  obtain ⟨record, s', -, hread, -⟩ := ActiveEngine.readRecord_ok (a := e.active) (s := (w, c))
    hformats.covers hsteady hh rfl fields (le_refl _)
  have hrecord : e.readRecord w h fields c = .ok record s'.2 := by
    have hnow := hread
    rw [active_readRecord, now_apply] at hnow
    cases hr : e.readRecord w h fields c with
    | ok r c' =>
      rw [hr] at hnow
      obtain ⟨rfl, rfl⟩ := EStateM.Result.ok.inj hnow
      rfl
    | error failure c' =>
      rw [hr] at hnow
      cases hnow
  refine ⟨record, s'.2, hrecord, ?_⟩
  rintro before f rest rfl hname hkind
  obtain ⟨front, ⟨w', c₁⟩, -, hbefore, hfollows⟩ := ActiveEngine.readRecord_ok (a := e.active)
    (s := (w, c)) hformats.covers hsteady hh rfl before (le_refl _)
  obtain rfl : w' = w := hfollows.world
  exact ⟨c₁, ActiveEngine.get?_of_readRecord hformats.covers hsteady hh rfl hname hkind hbefore
    hread⟩

end Engine

end Fieldwise
