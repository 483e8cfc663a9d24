import Fieldwise.ExternalId.Reference
import Mathlib.Data.List.Nodup

/-!
What a record is like once its external ids have been translated: it has the same names in the same
order, and where names are not shared an entry is translated as it stood in the record.
-/

namespace Fieldwise

namespace Json

/-- The id of a single related object, as it is written, where that is text. -/
def externalId? : Json → Option String
  | text s => if Text.isBlank s then none else some s
  | object fields =>
    match Table.get? "id" fields with
    | some (text s) => if Text.isBlank s then none else some s
    | _ => none
  | _ => none

def withId (id : String) : Json → Json
  | text _ => text id
  | object fields => object (Table.put "id" (text id) fields)
  | v => v

theorem entryReferenceId?_eq (fields : List (String × Json)) :
    entryReferenceId? fields = (Table.get? "id" fields).bind referenceId? := by
  induction fields with
  | nil => simp [entryReferenceId?]
  | cons entry rest ih =>
    by_cases hname : entry.1 = "id" <;> simp [entryReferenceId?, Table.get?, hname, ih]

theorem entryReferenceId?_put (v : Json) (fields : List (String × Json)) :
    entryReferenceId? (Table.put "id" v fields) = referenceId? v := by
  rw [entryReferenceId?_eq, Table.get?_put_self, Option.bind_some]

theorem isBlank_of_externalId? {v : Json} {x : String} (hx : v.externalId? = some x) :
    Text.isBlank x = false := by
  unfold externalId? at hx
  grind

theorem referenceId?_withId {v : Json} {x : String} (hx : v.externalId? = some x) (id : String) :
    (v.withId id).referenceId? = (text id).referenceId? := by
  cases v with
  | text s => rfl
  | object fields => exact entryReferenceId?_put _ fields
  | _ => cases hx

end Json

namespace Translation

variable {e : Engine} {w : World}

/-- A relation between reports that adds up, and that a report keeps to with every look-up. -/
structure Accumulates (e : Engine) (w : World) (R : Translation → Translation → Prop) : Prop where
  refl (t : Translation) : R t t
  trans {t t' t'' : Translation} (h : R t t') (h' : R t' t'') : R t t''
  ofText (field table s : String) (t : Translation) : R t (ofText e w field table s t).2

namespace Accumulates

variable {R : Translation → Translation → Prop}

mutual

theorem ofValue (hR : Accumulates e w R) (field table : String) (t : Translation) :
    ∀ v, R t (ofValue e w field table t v).2
  | .text s => hR.ofText field table s t
  | .object fields => by
    unfold Translation.ofValue
    split
    · exact hR.ofText field table _ t
    · exact hR.refl t
  | .array items => hR.ofItems field table t items
  | .null | .boolean _ | .number _ => hR.refl t

theorem ofItems (hR : Accumulates e w R) (field table : String) (t : Translation) :
    ∀ items, R t (ofItems e w field table t items).2
  | [] => hR.refl t
  | v :: rest => hR.trans (hR.ofValue field table t v) (hR.ofItems field table _ rest)

end

theorem ofField (hR : Accumulates e w R) (f : Field) (state : Record × Translation) :
    R state.2 (ofField e w f state).2 := by
  obtain ⟨record, t⟩ := state
  simp only [Translation.ofField]
  split
  · exact hR.ofValue _ _ t _
  · exact hR.refl t

theorem ofFields (hR : Accumulates e w R) (fields : List Field) (state : Record × Translation) :
    R state.2 (fields.foldl (fun state f => Translation.ofField e w f state) state).2 := by
  induction fields generalizing state with
  | nil => exact hR.refl _
  | cons f rest ih => exact hR.trans (hR.ofField f state) (ih _)

end Accumulates

/-- What is to be bound stays, and an error is not forgotten. -/
def Continues (t t' : Translation) : Prop :=
  t'.deferrals = t.deferrals ∧ (t'.error? = none → t.error? = none)

theorem accumulates_continues (e : Engine) (w : World) : Accumulates e w Continues where
  refl _ := ⟨rfl, id⟩
  trans h h' := ⟨h'.1.trans h.1, fun herror => h.2 (h'.2 herror)⟩
  ofText field table s t := by
    unfold ofText
    split
    · exact ⟨rfl, id⟩
    · split
      · exact ⟨rfl, id⟩
      · exact ⟨rfl, id⟩
      · exact ⟨rfl, fun herror => nomatch herror⟩

/-- The own id comes first; the fields after it only add misses. -/
theorem continues_translate (e : Engine) (w : World) (entity : Entity) (record : Record) :
    Continues (ofOwnId e w entity.table record).2 (e.translate w entity record).2 :=
  (accumulates_continues e w).ofFields entity.referenceFields _

/-- The own id of a record, if it is an external one and nothing is bound to it. -/
def unknownOwnId? (e : Engine) (w : World) (table : String) (record : Record) : Option String :=
  match record.get? "id" with
  | some (.text s) =>
    if Text.isBlank s then none
    else
      match e.externalIds.resolve table s w with
      | .ok none => some s
      | _ => none
  | _ => none

/-- The one id that may have to be bound is that of the record itself. -/
theorem deferrals_ofOwnId {table : String} {record : Record}
    (herror : (ofOwnId e w table record).2.error? = none) :
    (ofOwnId e w table record).2.deferrals =
      (unknownOwnId? e w table record).toList.map fun s => ⟨table, s⟩ := by
  cases hid : record.get? "id" with
  | none => simp [ofOwnId, unknownOwnId?, hid]
  | some v =>
    cases v with
    | text s =>
      by_cases hblank : Text.isBlank s
      · simp [ofOwnId, unknownOwnId?, hid, ofText, hblank]
      · cases hanswer : e.externalIds.resolve table s w with
        | error err =>
          simp [ofOwnId, hid, ofText, lookup, hblank, hanswer, bind, Except.bind] at herror
        | ok found =>
          cases found with
          | some id =>
            simp [ofOwnId, unknownOwnId?, hid, ofText, lookup, hblank, hanswer, bind, Except.bind,
              pure, Except.pure]
          | none =>
            cases hmode : e.settings.externalIdMode with
            | strict =>
              simp [ofOwnId, hid, ofText, lookup, hblank, hanswer, hmode, bind, Except.bind,
                throw, throwThe, MonadExceptOf.throw] at herror
            | lenient =>
              simp [ofOwnId, unknownOwnId?, hid, ofText, lookup, hblank, hanswer, hmode, bind,
                Except.bind, pure, Except.pure, miss]
    | null | boolean _ | number _ | array _ | object _ => simp [ofOwnId, unknownOwnId?, hid]

theorem deferrals_translate {entity : Entity} {record : Record}
    (herror : (e.translate w entity record).2.error? = none) :
    (e.translate w entity record).2.deferrals =
      (unknownOwnId? e w entity.table record).toList.map fun s => ⟨entity.table, s⟩ := by
  obtain ⟨hdeferrals, hkept⟩ := continues_translate e w entity record
  rw [hdeferrals]
  exact deferrals_ofOwnId (hkept herror)

theorem ofValue_of_externalId? {v : Json} {x : String} (hx : v.externalId? = some x)
    (field table : String) (t : Translation) : ofValue e w field table t v =
      (v.withId (ofText e w field table x t).1, (ofText e w field table x t).2) := by
  cases v with
  | text s =>
    simp only [Json.externalId?] at hx
    split at hx
    · cases hx
    · obtain rfl := Option.some.inj hx
      rfl
  | object fields =>
    simp only [Json.externalId?] at hx
    split at hx
    · next s hs =>
      split at hx
      · cases hx
      · obtain rfl := Option.some.inj hx
        simp only [ofValue, hs, Json.withId]
    · cases hx
  | _ => cases hx

theorem ofValue_of_no_externalId {v : Json} (harray : ∀ items, v ≠ .array items)
    (hnone : v.externalId? = none) (field table : String) (t : Translation) :
    ofValue e w field table t v = (v, t) := by
  cases v with
  | array items => exact absurd rfl (harray items)
  | text s =>
    have hs : Text.isBlank s = true := by simpa [Json.externalId?] using hnone
    simp [ofValue, ofText, hs]
  | object fields =>
    simp only [ofValue]
    split
    · next s hid =>
      have hs : Text.isBlank s = true := by simpa [Json.externalId?, hid] using hnone
      simp [ofText, hs, Table.put_of_get? hid]
    · rfl
  | null | boolean _ | number _ => rfl

theorem ofValue_of_bound {field table x y : String} {t : Translation} {v : Json}
    (hx : v.externalId? = some x) (hbound : lookup e w table x = .ok (some y))
    (ht : t.error? = none) : (ofValue e w field table t v).1 = v.withId y := by
  simp [ofValue_of_externalId? hx, ofText, ht, Json.isBlank_of_externalId? hx, hbound]

theorem keys_put_of_get? {key : String} {v u : Json} {record : Record}
    (h : record.get? key = some v) : (record.put key u).keys = record.keys := by
  rw [Table.keys_put, if_pos]
  by_contra hmem
  simp [Table.get?_eq_none_iff.mpr hmem] at h

theorem keys_ofOwnId (table : String) (record : Record) :
    (ofOwnId e w table record).1.keys = record.keys := by
  unfold ofOwnId
  split
  · next s hs => exact keys_put_of_get? hs
  · rfl

theorem keys_ofField (f : Field) (state : Record × Translation) :
    (ofField e w f state).1.keys = state.1.keys := by
  unfold ofField
  split
  next record t =>
  split
  · next v related hv _ => exact keys_put_of_get? hv
  · rfl

theorem keys_translate (entity : Entity) (record : Record) :
    (e.translate w entity record).1.keys = record.keys := by
  rw [← keys_ofOwnId (e := e) (w := w) entity.table record]
  unfold Engine.translate
  generalize ofOwnId e w entity.table record = state
  induction entity.referenceFields generalizing state with
  | nil => rfl
  | cons f rest ih => exact (ih _).trans (keys_ofField f state)

theorem get?_ofOwnId {key : String} (hkey : key ≠ "id") (table : String) (record : Record) :
    (ofOwnId e w table record).1.get? key = record.get? key := by
  unfold ofOwnId
  split
  · exact Table.get?_put_of_ne hkey ..
  · rfl

theorem get?_ofField_of_ne {f : Field} {key : String} (hkey : key ≠ f.name)
    (state : Record × Translation) : (ofField e w f state).1.get? key = state.1.get? key := by
  unfold ofField
  split
  split
  · exact Table.get?_put_of_ne hkey ..
  · rfl

theorem get?_ofFields_of_notMem {fields : List Field} {key : String}
    (hkey : key ∉ fields.map (·.name)) (state : Record × Translation) :
    (fields.foldl (fun state f => ofField e w f state) state).1.get? key = state.1.get? key := by
  induction fields generalizing state with
  | nil => rfl
  | cons f rest ih =>
    simp only [List.map_cons, List.mem_cons, not_or] at hkey
    rw [List.foldl_cons, ih hkey.2, get?_ofField_of_ne hkey.1]

/-- The id in a reference field is replaced once by what it is bound to, whatever other fields and
the record itself are translated to. -/
theorem get?_translate {entity related : Entity} {record : Record} {f : Field} {v : Json}
    {x y : String} (hnames : (entity.fields.map (·.name)).Nodup) (hf : f ∈ entity.fields)
    (hkind : f.kind = .reference) (hname : f.name ≠ "id") (hrelated : e.related? f = some related)
    (hv : record.get? f.name = some v) (hx : v.externalId? = some x)
    (hbound : lookup e w related.table x = .ok (some y))
    (herror : (e.translate w entity record).2.error? = none) :
    (e.translate w entity record).1.get? f.name = some (v.withId y) := by
  have hmem : f ∈ entity.referenceFields := by simp [Entity.referenceFields, hf, hkind]
  have hnames : (entity.referenceFields.map (·.name)).Nodup :=
    hnames.sublist (List.filter_sublist.map _)
  unfold Engine.translate at herror ⊢
  obtain ⟨before, rest, hsplit⟩ := List.append_of_mem hmem
  rw [hsplit] at hnames herror ⊢
  rw [List.map_append, List.map_cons, List.nodup_append] at hnames
  obtain ⟨-, hrest, hbefore⟩ := hnames
  have hbefore : f.name ∉ before.map (·.name) := fun h => hbefore _ h _ List.mem_cons_self rfl
  -- No field before or after has the name, so the field meets the entry of the record.
  rw [List.foldl_append, List.foldl_cons] at herror ⊢
  generalize hstate : before.foldl _ (ofOwnId e w entity.table record) = state at herror ⊢
  obtain ⟨record', t⟩ := state
  have hv' : record'.get? f.name = some v := by
    rw [← hv, ← get?_ofOwnId (e := e) (w := w) hname entity.table record,
      ← get?_ofFields_of_notMem hbefore, hstate]
  have ht : t.error? = none :=
    ((accumulates_continues e w).ofField f _).2
      (((accumulates_continues e w).ofFields rest _).2 herror)
  rw [get?_ofFields_of_notMem (List.nodup_cons.mp hrest).1]
  simp only [ofField, hv', hrelated, Table.get?_put_self, ofValue_of_bound hx hbound ht]

end Translation

end Fieldwise
