import Fieldwise.Proofs.Conversion.Rendering
import Fieldwise.Proofs.Reading.Traversal
import Fieldwise.Sample.Engine

/-!
When formats are at fault. A reading ends so only if a property leads to a value that the formats
of the settings cannot be applied to, and any such value ends some reading. Whether the settings
pass their check has no part in it.
-/

namespace Fieldwise

/-- A reading ends with formats at fault, from any context, only if `bad`. -/
def Reading.Blames {α : Type} (bad : Prop) (x : Reading α) : Prop :=
  ∀ c c', x c = .error .unformattable c' → bad

namespace Reading.Blames

variable {α β : Type} {bad : Prop} {x : Reading α}

theorem pure {a : α} : Blames bad (pure a) := nofun

theorem fail {e : Error} : Blames bad (throw (.error e) : Reading α) := nofun

theorem lift (result : Except Error α) : Blames bad (Reading.lift result) := by
  cases result <;> nofun

theorem get : Blames bad (get : Reading Context) := nofun

theorem lift_bind {result : Except Error α} {k : α → Reading β}
    (hk : ∀ a, result = .ok a → Blames bad (k a)) : Blames bad (Reading.lift result >>= k) := by
  cases result with
  | ok a => exact hk a rfl
  | error e => nofun

theorem bind {k : α → Reading β} (hx : Blames bad x) (hk : ∀ a, Blames bad (k a)) :
    Blames bad (x >>= k) := by
  intro c c' h
  obtain h | ⟨a, c₁, -, h⟩ := bind_eq_error.mp h
  · exact hx c c' h
  · exact hk a c₁ c' h

theorem map {k : α → β} (hx : Blames bad x) : Blames bad (k <$> x) := by
  rw [map_eq_pure_bind]
  exact hx.bind fun _ => pure

theorem mapM {f : α → Reading β} (hf : ∀ a, Blames bad (f a)) (items : List α) :
    Blames bad (items.mapM f) := by
  induction items with
  | nil => exact pure
  | cons a rest ih =>
    rw [List.mapM_cons]
    exact (hf a).bind fun b => ih.bind fun bs => pure

theorem orNull {x : Reading Json} (hx : Blames bad x) : Blames bad x.orNull := by
  intro c c' h
  apply hx c c'
  unfold Reading.orNull at h
  split at h
  · cases h
  · exact h

end Reading.Blames

namespace Engine

open Reading

variable {e : Engine} {w : World} {nested : Handle → Entity → Reading Record}

theorem blames_readDirect (h : Handle) (f : Field) :
    Blames (e.Unformattable w) (e.readDirect w h f) := by
  refine .lift_bind fun v hv => ?_
  cases hrender : render? e.settings (fun g => (w.heap.get g).identifier) v with
  | some shown => exact .pure
  | none => exact fun _ _ _ => ⟨h, f.property, v, hv, hrender⟩

theorem blames_readCustom (h : Handle) (f : Field) :
    Blames (e.Unformattable w) (e.readCustom w h f) := by
  simp only [readCustom]
  cases e.custom.reader? (f.qualifier.getD "") with
  | some read => exact .bind .get fun c => .lift _
  | none => exact .fail

section

variable (hnested : ∀ h entity, Blames (e.Unformattable w) (nested h entity))
include hnested

theorem blames_readRelated (f : Field) (h : Handle) :
    Blames (e.Unformattable w) (e.readRelated nested w f h) := by
  refine .bind .get fun c => ?_
  split
  · exact .pure
  · cases e.related? f with
    | some entity => exact (hnested h entity).map
    | none => exact .pure

theorem blames_readReference (h : Handle) (f : Field) :
    Blames (e.Unformattable w) (e.readReference nested w h f) := by
  have hitem (item : PropertyValue) :
      Blames (e.Unformattable w) (e.readItem nested w f item) := by
    cases item with
    | reference g => exact blames_readRelated hnested f g
    | _ => exact .pure
  refine .lift_bind fun v _ => ?_
  cases v with
  | null => exact .pure
  | reference g => exact blames_readRelated hnested f g
  | list items => exact (Blames.mapM hitem items).map
  | _ => exact .fail

theorem blames_readEntry (h : Handle) (f : Field) :
    Blames (e.Unformattable w) (e.readEntry nested w h f) := by
  unfold readEntry
  cases f.kind.strategy? with
  | none => exact .pure
  | some strategy =>
    apply Blames.orNull
    cases strategy with
    | direct => exact blames_readDirect h f
    | constant => exact .lift _
    | reference => exact blames_readReference hnested h f
    | custom => exact blames_readCustom h f
    | path => exact .lift _

theorem blames_readEntries (h : Handle) (record : Record) (fields : List Field) :
    Blames (e.Unformattable w) (e.readEntries nested w h record fields) := by
  induction fields generalizing record with
  | nil => exact .pure
  | cons f rest ih => exact (blames_readEntry hnested h f).bind fun v => ih _

end

theorem blames_readNested (d : Nat) (h : Handle) (fields : List Field) :
    Blames (e.Unformattable w) (e.readNested w d h fields) := by
  induction d generalizing h fields with
  | zero => exact .fail
  | succ d ih =>
    refine Blames.bind (x := modify (·.visit (.of w.heap h))) nofun fun _ => ?_
    exact blames_readEntries (fun g entity => ih g entity.fields) h [] fields

theorem toRecord_direct {h : Handle} {path : String} {v : PropertyValue} {entity : Entity}
    (hfields : entity.fields = [.direct path path])
    (hget : e.registry.getPath w.heap h path = .ok v)
    (hrender : render? e.settings (fun g => (w.heap.get g).identifier) v = none) :
    e.toRecord w h entity = .error .unformattable := by
  have hdirect (c : Context) : e.readDirect w h (.direct path path) c =
      .error .unformattable c := by
    have hlift : Reading.lift (e.registry.getPath w.heap h path) c = .ok v c := by
      rw [hget]
      rfl
    rw [readDirect, bind_apply]
    simp only [Field.direct, hlift, hrender, throw_apply]
  have hentry (nested : Handle → Entity → Reading Record) (c : Context) :
      e.readEntry nested w h (.direct path path) c = .error .unformattable c := by
    change (e.readDirect w h (.direct path path)).orNull c = _
    rw [Reading.orNull, hdirect]
  simp only [toRecord, readRecord, depth, readNested, EStateM.run, bind_apply, modify_apply,
    hfields, readEntries, hentry]

/-- Whatever settings pass their check, values are written and objects are read unless a pattern
cannot be applied to a date or to a point in time; and what makes that so is the pattern alone. -/
theorem reading_unformattable_iff (e : Engine) (w : World) :
    (∀ identifier v, render? e.settings identifier v = none ↔ e.settings.covers v = false) ∧
    ((∃ h entity, e.toRecord w h entity = .error .unformattable) ↔
      ∃ h path v, e.registry.getPath w.heap h path = .ok v ∧ e.settings.covers v = false) ∧
    ((∀ v, e.settings.covers v = true) ↔
      (Calendar.Pattern.ofString e.settings.dateFormat).isWritable false = true ∧
        (Calendar.Pattern.ofString e.settings.dateTimeFormat).isWritable true = true) := by
  refine ⟨Settings.render?_eq_none_iff, ⟨?_, ?_⟩, Settings.covers_all_iff⟩
  · rintro ⟨h, entity, hfails⟩
    unfold toRecord at hfails
    split at hfails
    · cases hfails
    · next failure c' hread =>
      obtain rfl : failure = .unformattable := by simpa using hfails
      obtain ⟨g, path, v, hv, hrender⟩ := blames_readNested _ h entity.fields _ c' hread
      exact ⟨g, path, v, hv, (Settings.render?_eq_none_iff _ v).mp hrender⟩
  · rintro ⟨h, path, v, hv, hcovers⟩
    have hrender := (Settings.render?_eq_none_iff (fun g => (w.heap.get g).identifier) v).mpr
      hcovers
    exact ⟨h, { id := "", name := "", table := "", fields := [.direct path path] },
      toRecord_direct rfl hv hrender⟩

end Engine

namespace Sample

/-- Dates are shown by their hour. -/
def hourly : Settings := { dateFormat := "%H" }

def hourlyEngine : Engine := { engine with settings := hourly, audit? := none }

def launched : World := { World.empty with
  heap := [⟨product.kind, [("launch_date", .date moment.date)]⟩] }

end Sample

namespace Engine

set_option maxRecDepth 4000 in
/-- A date has no hour; the check does not see that. -/
theorem hourly_unformattable :
    Sample.hourly.check = .ok () ∧
    build {
      catalog := Sample.catalog
      registry := Sample.registry
      settings := Sample.hourly
      persistence := some (.inMemory numberedId)
      constants := some Sample.engine.constants } = .ok Sample.hourlyEngine ∧
    render? Sample.hourly (fun _ => "") (.date Sample.moment.date) = none ∧
    Sample.hourlyEngine.toRecord Sample.launched 0 Sample.productEntity =
      .error .unformattable := by
  have hcheck : Sample.hourly.check = .ok () := by decide +kernel
  have hvalid : Sample.catalog.examine.result = .ok () := by decide +kernel
  refine ⟨hcheck, ?_, ?_, rfl⟩
  · simp only [build, hcheck, hvalid]
    rfl
  · exact (Settings.render?_eq_none_iff _ _).mpr (by decide +kernel)

end Engine

end Fieldwise
