import Fieldwise.Conversion.Writing
import Fieldwise.Proofs.Outcome
import Mathlib.Data.List.Nodup

/-!
The order of the entries of a record. An engine goes through the fields of an entity and looks them
up in the record, never through the record itself; so records with the same entries in different
orders are translated alike and written alike, as long as custom writers do so too.
-/

namespace Fieldwise

namespace Table

variable {κ α : Type} [DecidableEq κ] {t t' : Table κ α}

/-- The tables have each key once, with the same value. -/
structure SameEntries (t t' : Table κ α) : Prop where
  nodup : t.keys.Nodup
  nodup' : t'.keys.Nodup
  get?_eq (key : κ) : t.get? key = t'.get? key

theorem sameEntries_iff_perm : t.SameEntries t' ↔ t.keys.Nodup ∧ t.Perm t' := by
  constructor
  · rintro ⟨hnodup, hnodup', hget⟩
    refine ⟨hnodup, (List.perm_ext_iff_of_nodup hnodup.of_map hnodup'.of_map).mpr ?_⟩
    rintro ⟨key, value⟩
    rw [← get?_eq_some_iff hnodup, ← get?_eq_some_iff hnodup', hget]
  · rintro ⟨hnodup, hperm⟩
    have hnodup' : t'.keys.Nodup := (hperm.map Prod.fst).nodup_iff.mp hnodup
    refine ⟨hnodup, hnodup', fun key => Option.ext fun value => ?_⟩
    rw [get?_eq_some_iff hnodup, get?_eq_some_iff hnodup', hperm.mem_iff]

namespace SameEntries

theorem refl (hnodup : t.keys.Nodup) : t.SameEntries t := ⟨hnodup, hnodup, fun _ => rfl⟩

theorem put (h : t.SameEntries t') (key : κ) (value : α) :
    SameEntries (t.put key value) (t'.put key value) := by
  refine ⟨nodup_keys_put h.nodup value, nodup_keys_put h.nodup' value, fun key' => ?_⟩
  by_cases hkey : key' = key
  · rw [hkey, get?_put_self, get?_put_self]
  · rw [get?_put_of_ne hkey, get?_put_of_ne hkey, h.get?_eq]

end SameEntries

/-- The entry with the key is taken out of every table with distinct keys, and no other entry is;
they may be in any order then. -/
structure TakesOut (key : κ) (drop : Table κ α → Table κ α) : Prop where
  nodup {t : Table κ α} (h : t.keys.Nodup) : (drop t).keys.Nodup
  get?_self {t : Table κ α} (h : t.keys.Nodup) : (drop t).get? key = none
  get?_of_ne {t : Table κ α} (h : t.keys.Nodup) {key' : κ} (hne : key' ≠ key) :
    (drop t).get? key' = t.get? key'

theorem TakesOut.sameEntries {key : κ} {drop drop' : Table κ α → Table κ α}
    (hdrop : TakesOut key drop) (hdrop' : TakesOut key drop') (h : t.SameEntries t') :
    SameEntries (drop t) (drop' t') := by
  refine ⟨hdrop.nodup h.nodup, hdrop'.nodup h.nodup', fun key' => ?_⟩
  by_cases hkey : key' = key
  · rw [hkey, hdrop.get?_self h.nodup, hdrop'.get?_self h.nodup']
  · rw [hdrop.get?_of_ne h.nodup hkey, hdrop'.get?_of_ne h.nodup' hkey, h.get?_eq]

theorem nodup_keys_remove (h : t.keys.Nodup) (key : κ) : (t.remove key).keys.Nodup := by
  unfold remove
  split
  · exact List.nodup_nil
  · next last hlast =>
    obtain ⟨front, rfl⟩ := List.getLast?_eq_some_iff.mp hlast
    have hfront : (keys front).Nodup := h.sublist ((List.sublist_append_left _ _).map _)
    have hnew : last.1 ∉ keys front := notMem_keys_of_nodup h
    rw [List.dropLast_concat]
    split
    · exact h
    · split
      · exact hfront
      · -- One key is exchanged for one that none of the entries has.
        have hkeys : keys (front.map fun entry => if entry.1 = key then last else entry) =
            (keys front).map fun k => if k = key then last.1 else k := by
          simp only [keys, List.map_map, Function.comp_def, apply_ite Prod.fst]
        rw [hkeys]
        refine hfront.map_on fun k hk k' hk' heq => ?_
        grind

/-- The last entry moves to the place of the one that is taken out. -/
theorem takesOut_remove (key : κ) : TakesOut key (remove key : Table κ α → Table κ α) where
  nodup h := nodup_keys_remove h key
  get?_self h := get?_remove_self h
  get?_of_ne h _ hne := get?_remove_of_ne h hne

theorem get?_filter_of_ne {key key' : κ} (hne : key' ≠ key) (t : Table κ α) :
    Table.get? key' (t.filter fun entry => entry.1 ≠ key) = t.get? key' := by
  induction t with
  | nil => rfl
  | cons entry rest ih =>
    by_cases hk : entry.1 = key
    · rw [List.filter_cons_of_neg (by simpa using hk), ih, get?, if_neg (hk ▸ Ne.symm hne)]
    · rw [List.filter_cons_of_pos (by simpa using hk), get?, get?, ih]

/-- All other entries stay in their order. -/
theorem takesOut_filter (key : κ) :
    TakesOut key fun t : Table κ α => t.filter fun entry => entry.1 ≠ key where
  nodup h := h.sublist (List.filter_sublist.map _)
  get?_self _ := by
    rw [get?_eq_none_iff, keys, List.mem_map]
    rintro ⟨entry, hentry, rfl⟩
    simp at hentry
  get?_of_ne {t} _ _ hne := get?_filter_of_ne hne t

end Table

open Table (SameEntries)

/-- No writer depends on the order of a record. -/
def CustomMappings.IgnoreOrder (m : CustomMappings) : Prop :=
  ∀ qualifier write, m.writer? qualifier = some write → ∀ {record record' : Record},
    record.SameEntries record' → ∀ h f, write h record f = write h record' f

variable {e : Engine} {w : World} {record record' : Record}

/-! ### Translating -/

namespace Translation

/-- The records have the same entries, and the same has been done to them. -/
structure Alike (state state' : Record × Translation) : Prop where
  record : state.1.SameEntries state'.1
  report : state.2 = state'.2

theorem ofOwnId_alike (h : record.SameEntries record') (table : String) :
    Alike (ofOwnId e w table record) (ofOwnId e w table record') := by
  unfold ofOwnId
  rw [h.get?_eq]
  split
  · exact ⟨h.put _ _, rfl⟩
  · exact ⟨h, rfl⟩

theorem ofField_alike {state state' : Record × Translation} (h : Alike state state') (f : Field) :
    Alike (ofField e w f state) (ofField e w f state') := by
  obtain ⟨record, t⟩ := state
  obtain ⟨record', t'⟩ := state'
  obtain ⟨hrecord, rfl⟩ := h
  simp only [ofField, hrecord.get?_eq]
  split
  · exact ⟨hrecord.put _ _, rfl⟩
  · exact ⟨hrecord, rfl⟩

theorem ofFields_alike {state state' : Record × Translation} (h : Alike state state')
    (fields : List Field) :
    Alike (fields.foldl (fun state f => ofField e w f state) state)
      (fields.foldl (fun state f => ofField e w f state) state') := by
  induction fields generalizing state state' with
  | nil => exact h
  | cons f rest ih => exact ih (ofField_alike h f)

end Translation

namespace Engine

theorem translate_alike (h : record.SameEntries record') (e : Engine) (w : World)
    (entity : Entity) :
    Translation.Alike (e.translate w entity record) (e.translate w entity record') :=
  Translation.ofFields_alike (Translation.ofOwnId_alike h entity.table) _

/-! ### Writing -/

theorem missingField?_of_sameEntries (h : record.SameEntries record') (fields : List Field) :
    missingField? fields record = missingField? fields record' := by
  simp only [missingField?, h.get?_eq]

theorem target_of_sameEntries (h : record.SameEntries record') (existing : Option Handle)
    (entity : Entity) (fields : List Field) :
    e.target record existing entity fields = e.target record' existing entity fields := by
  unfold target
  rw [missingField?_of_sameEntries h]

variable (hwriters : e.custom.IgnoreOrder)
include hwriters

/-- One field is written alike, though custom writers are given the record as a whole. -/
theorem writeEntry_of_sameEntries (hsame : record.SameEntries record') (h : Handle) (f : Field) :
    e.writeEntry record h f = e.writeEntry record' h f := by
  unfold writeEntry
  rw [hsame.get?_eq]
  split
  · next v strategy _ _ =>
    cases strategy with
    | custom =>
      simp only [writeBy, writeCustom, Option.getD_some]
      split
      · next write hwrite => exact hwriters _ write hwrite hsame h f
      · rfl
    | direct | reference | constant | path => rfl
  · rfl

theorem writeOnto_of_sameEntries (hsame : record.SameEntries record') (h : Handle) (isNew : Bool)
    (fields : List Field) :
    e.writeOnto record h isNew fields = e.writeOnto record' h isNew fields := by
  have hfields : e.writeEntry record h = e.writeEntry record' h :=
    funext (writeEntry_of_sameEntries hwriters hsame h)
  rw [writeOnto, writeOnto, hfields]

theorem writeRecord_of_sameEntries (hsame : record.SameEntries record') (existing : Option Handle)
    (entity : Entity) (fields : List Field) :
    e.writeRecord record existing entity fields = e.writeRecord record' existing entity fields := by
  unfold writeRecord
  rw [target_of_sameEntries hsame]
  refine bind_congr fun h => ?_
  rw [writeOnto_of_sameEntries hwriters hsame]

end Engine

end Fieldwise
