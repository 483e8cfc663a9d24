import Fieldwise.Proofs.Conversion.EntryOrder
import Fieldwise.Sample.Engine
import Fieldwise.Service

/-!
Calls with records that have the same entries in different orders come to the same. The service
itself changes the order when it takes the id out of a record; any other way of doing so would come
to the same as well.
-/

namespace Fieldwise

open Table (SameEntries TakesOut takesOut_remove)

namespace Engine

/-- `createRecord` with another way of taking the id out of a record. -/
def createRecordBy (drop : Record → Record) (e : Engine) (projection name : String)
    (record : Record) : Action Record := do
  let entity ← Action.lift (e.exposed projection name)
  let (record, t) ← e.translated entity record
  let record := if t.deferrals.isEmpty then record else drop record
  let h ← e.writeRecord record none entity entity.fields
  (e.persistence.save h).within s!"saving new {projection}.{name}"
  let _ ← e.bindDeferrals t h
  e.shown h entity

/-- `updateRecord` with another way of taking the id out of a record. -/
def updateRecordBy (drop : Record → Record) (e : Engine) (projection name id : String)
    (record : Record) : Action Record := do
  let asked ← e.lookUp projection name id
  let some h := asked.found
    | Action.fail (.entityNotFound asked.typeName asked.id)
  let (record, _) ← e.translated asked.entity (drop record)
  let h ← e.writeRecord record (some h) asked.entity asked.entity.fields
  (e.persistence.save h).within s!"saving {projection}.{name} {asked.id}"
  e.shown h asked.entity

variable {e : Engine} {record record' : Record} {drop drop' : Record → Record}

theorem createRecord_eq_createRecordBy (e : Engine) :
    e.createRecord = e.createRecordBy (Table.remove "id") := rfl

theorem updateRecord_eq_updateRecordBy (e : Engine) :
    e.updateRecord = e.updateRecordBy (Table.remove "id") := rfl

/-- What is done with a translated record does not depend on the order of the one that was given,
if it does not depend on the order of the translated one. -/
theorem translated_bind_of_sameEntries {α : Type} {k k' : Record × Translation → Action α}
    (h : record.SameEntries record') (entity : Entity)
    (hk : ∀ state state', Translation.Alike state state' → k state = k' state') :
    (e.translated entity record >>= k) = e.translated entity record' >>= k' := by
  unfold translated
  simp only [bind_assoc]
  refine bind_congr fun w => ?_
  have halike := translate_alike h e w entity
  rw [halike.report]
  split
  · rfl
  · simp only [pure_bind]
    exact hk _ _ halike

theorem createRecordBy_of_sameEntries (hwriters : e.custom.IgnoreOrder)
    (hdrop : TakesOut "id" drop) (hdrop' : TakesOut "id" drop')
    (h : record.SameEntries record') (projection name : String) :
    e.createRecordBy drop projection name record =
      e.createRecordBy drop' projection name record' := by
  refine bind_congr fun entity => translated_bind_of_sameEntries h entity ?_
  rintro ⟨r, t⟩ ⟨r', _⟩ ⟨hr, rfl⟩
  have hwritten : SameEntries (if t.deferrals.isEmpty then r else drop r)
      (if t.deferrals.isEmpty then r' else drop' r') := by
    split
    · exact hr
    · exact hdrop.sameEntries hdrop' hr
  dsimp only
  rw [writeRecord_of_sameEntries hwriters hwritten]

theorem updateRecordBy_of_sameEntries (hwriters : e.custom.IgnoreOrder)
    (hdrop : TakesOut "id" drop) (hdrop' : TakesOut "id" drop')
    (h : record.SameEntries record') (projection name id : String) :
    e.updateRecordBy drop projection name id record =
      e.updateRecordBy drop' projection name id record' := by
  refine bind_congr fun asked => ?_
  cases asked.found with
  | none => rfl
  | some target =>
    refine translated_bind_of_sameEntries (hdrop.sameEntries hdrop' h) asked.entity ?_
    rintro ⟨r, t⟩ ⟨r', _⟩ ⟨hr, rfl⟩
    dsimp only
    rw [writeRecord_of_sameEntries hwriters hr]

/-- Records with the same entries in different orders are translated to the same report or error and
to the same entries, are written with the same result and effects, and are created and updated
alike. That taking the id out of a record moves its last entry has no effect either. -/
theorem entryOrder_irrelevant (e : Engine) (hwriters : e.custom.IgnoreOrder)
    (h : record.SameEntries record') (w : World) :
    (∀ entity, (e.translate w entity record).2 = (e.translate w entity record').2 ∧
      (e.translate w entity record).1.SameEntries (e.translate w entity record').1) ∧
    (∀ existing entity fields, e.writeRecord record existing entity fields w =
      e.writeRecord record' existing entity fields w) ∧
    (∀ projection name,
      e.createRecord projection name record w = e.createRecord projection name record' w ∧
      ∀ id, e.updateRecord projection name id record w =
        e.updateRecord projection name id record' w) ∧
    ∀ drop, TakesOut "id" drop → ∀ projection name,
      e.createRecord projection name record w = e.createRecordBy drop projection name record w ∧
      ∀ id, e.updateRecord projection name id record w =
        e.updateRecordBy drop projection name id record w := by
  have hremove : TakesOut "id" (Table.remove "id" : Record → Record) := takesOut_remove "id"
  have hrecord : record.SameEntries record := .refl h.nodup
  rw [createRecord_eq_createRecordBy, updateRecord_eq_updateRecordBy]
  refine ⟨fun entity => ?_, fun existing entity fields => ?_,
    fun projection name => ⟨?_, fun id => ?_⟩,
    fun drop hdrop projection name => ⟨?_, fun id => ?_⟩⟩
  · have halike := translate_alike h e w entity
    exact ⟨halike.report, halike.record⟩
  · rw [writeRecord_of_sameEntries hwriters h]
  · rw [createRecordBy_of_sameEntries hwriters hremove hremove h]
  · rw [updateRecordBy_of_sameEntries hwriters hremove hremove h]
  · rw [createRecordBy_of_sameEntries hwriters hremove hdrop hrecord]
  · rw [updateRecordBy_of_sameEntries hwriters hremove hdrop hrecord]

end Engine

namespace Sample

/-- A document has its day for its title, whatever the record says of the field itself. -/
def retitle : CustomWriter := fun h record _ =>
  let title := ((record.get? "day").bind Json.text?).getD "undated"
  Action.changeHeap fun heap => registry.setPath heap h "title" (.text title)

def press : Engine := { engine with custom := ⟨[], [("calc", retitle)]⟩ }

theorem press_ignoreOrder : press.custom.IgnoreOrder := by
  intro qualifier write hwrite record record' hsame h f
  obtain rfl : retitle = write := by
    have hmem := Table.mem_of_get? hwrite
    simp only [press, List.mem_singleton, Prod.mk.injEq] at hmem
    exact hmem.2.symm
  simp only [retitle, hsame.get?_eq]

def draft : Record := [("id", .text "D-7"), ("calc", .null), ("count", .ofInt 3),
  ("day", .text "2024-05-06")]

end Sample

namespace Engine

open Sample

/-- The document does not keep its unknown id; its last entry stands first then. -/
theorem press_entryOrder_irrelevant :
    draft.SameEntries draft.reverse ∧ (draft.remove "id").keys = ["day", "calc", "count"] ∧
    (∃ shown w, press.createRecord "docs" "Doc" draft World.empty = .ok shown w) ∧
    press.createRecord "docs" "Doc" draft World.empty =
      press.createRecord "docs" "Doc" draft.reverse World.empty ∧
    press.createRecord "docs" "Doc" draft World.empty =
      press.createRecordBy (fun record => record.filter fun entry => entry.1 ≠ "id") "docs" "Doc"
        draft World.empty := by
  have hsame : draft.SameEntries draft.reverse :=
    Table.sameEntries_iff_perm.mpr ⟨by decide, draft.reverse_perm.symm⟩
  obtain ⟨shown, hcreated⟩ : ∃ shown, press.createRecord "docs" "Doc" draft World.empty =
      .ok shown _ := exists_eq_ok_of_value? (by decide +kernel)
  obtain ⟨-, -, hcalls, hremoval⟩ :=
    entryOrder_irrelevant press press_ignoreOrder hsame World.empty
  exact ⟨hsame, by decide, ⟨shown, _, hcreated⟩, (hcalls "docs" "Doc").1,
    (hremoval _ (Table.takesOut_filter "id") "docs" "Doc").1⟩

end Engine

end Fieldwise
