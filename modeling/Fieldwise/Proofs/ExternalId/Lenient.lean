import Fieldwise.Proofs.ExternalId.Strict

/-!
Lenient translation of a record, all at once. Where every look-up gets an answer and no name stands
for two fields, it is a change of values under their keys, and its report goes through the ids that
are looked up in the record as it was given: the known ones are counted, the others are listed in
order. The report is told one id after the other, so that it adds up over items and over fields.
-/

namespace Fieldwise

namespace Table

variable {κ α : Type}

/-- Each value is changed in its place. -/
def mapValues (change : κ → α → α) (t : Table κ α) : Table κ α :=
  t.map fun entry => (entry.1, change entry.1 entry.2)

@[simp] theorem keys_mapValues (change : κ → α → α) (t : Table κ α) :
    (t.mapValues change).keys = t.keys := by
  simp [mapValues, keys, Function.comp_def]

theorem mapValues_mapValues (change change' : κ → α → α) (t : Table κ α) :
    (t.mapValues change).mapValues change' =
      t.mapValues fun key v => change' key (change key v) := by
  simp [mapValues, Function.comp_def]

theorem mapValues_eq_self {change : κ → α → α} {t : Table κ α}
    (h : ∀ entry ∈ t, change entry.1 entry.2 = entry.2) : t.mapValues change = t :=
  (List.map_congr_left fun entry hentry => by rw [h entry hentry, id]).trans (List.map_id t)

variable [DecidableEq κ]

theorem get?_mapValues (change : κ → α → α) (key : κ) (t : Table κ α) :
    (t.mapValues change).get? key = (t.get? key).map (change key) := by
  induction t with
  | nil => rfl
  | cons entry rest ih =>
    simp only [mapValues, List.map_cons, get?] at ih ⊢
    split
    · next hk => rw [hk, Option.map_some]
    · exact ih

theorem mapValues_eq_put {key : κ} {change : κ → α → α} (hothers : ∀ k ≠ key, ∀ v, change k v = v)
    {t : Table κ α} (h : t.keys.Nodup) :
    t.mapValues change = ((t.get? key).map fun v => t.put key (change key v)).getD t := by
  induction t with
  | nil => rfl
  | cons entry rest ih =>
    obtain ⟨hentry, hrest⟩ := List.nodup_cons.mp h
    by_cases hk : entry.1 = key
    · subst hk
      have hsame : mapValues change rest = rest := mapValues_eq_self fun other hother =>
        hothers _ (fun heq => hentry (heq ▸ List.mem_map_of_mem hother)) _
      rw [mapValues] at hsame
      simp [mapValues, get?, put, hsame]
    · have ih := ih hrest
      rw [mapValues] at ih
      rw [mapValues, List.map_cons, ih, hothers _ hk, get?, if_neg hk]
      cases get? key rest with
      | none => rfl
      | some v => simp [put, hk]

end Table

/-! ### The ids in a value, changed -/

namespace Json

mutual

/-- The value with other ids in place of those that are looked up when it is translated. -/
def mapExternalIds (change : String → String) : Json → Json
  | .array items => .array (mapExternalIdsOf change items)
  | v =>
    match v.externalId? with
    | some x => v.withId (change x)
    | none => v

def mapExternalIdsOf (change : String → String) : List Json → List Json
  | [] => []
  | v :: rest => v.mapExternalIds change :: mapExternalIdsOf change rest

end

end Json

/-- What external ids stand for at one moment, if for anything. -/
abbrev Answers := (table externalId : String) → Option String

namespace Answers

def internal (answers : Answers) (table x : String) : String := (answers table x).getD x

/-- Whether this would be no miss after all. -/
def knows (answers : Answers) (m : Miss) : Bool := (answers m.table m.externalId).isSome

end Answers

/-! ### The report -/

namespace Translation

/-- The report once these have been looked up as well. -/
def tally (answers : Answers) (t : Translation) (asked : List Miss) : Translation :=
  { t with
    replaced := t.replaced + asked.countP answers.knows
    misses := t.misses ++ asked.filter (!answers.knows ·) }

section Tally

variable {answers : Answers} {t : Translation}

@[simp] theorem tally_nil : t.tally answers [] = t := by simp [tally]

theorem tally_append (asked more : List Miss) :
    t.tally answers (asked ++ more) = (t.tally answers asked).tally answers more := by
  simp [tally, Nat.add_assoc]

end Tally

section Value

variable {e : Engine} {w : World} {answers : Answers}
  (hlenient : e.settings.externalIdMode = .lenient)
  (htotal : ∀ table x, e.externalIds.resolve table x w = .ok (answers table x))
  (field table : String)

section

include hlenient htotal

theorem lookup_lenient (x : String) : lookup e w table x = .ok (answers table x) := by
  simp only [lookup, htotal, hlenient]
  cases answers table x <;> rfl

theorem ofText_lenient {s : String} (hs : Text.isBlank s = false) {t : Translation}
    (ht : t.error? = none) : ofText e w field table s t =
      (answers.internal table s, t.tally answers [⟨field, table, s⟩]) := by
  simp only [ofText, ht, hs, Option.isSome_none, Bool.or_self, Bool.false_eq_true, if_false,
    lookup_lenient hlenient htotal table s]
  cases hanswer : answers table s with
  | some y => simp [Answers.internal, hanswer, tally, Answers.knows, ht]
  | none => simp [Answers.internal, hanswer, tally, Answers.knows, miss]

theorem ofValue_single_lenient {t : Translation} (ht : t.error? = none) {v : Json}
    (harray : ∀ items, v ≠ .array items) : ofValue e w field table t v =
      (v.mapExternalIds (answers.internal table),
        t.tally answers (v.externalIds.map (⟨field, table, ·⟩))) := by
  rw [Json.mapExternalIds.eq_2 _ _ harray, Json.externalIds.eq_2 _ harray]
  cases hv : v.externalId? with
  | none => simp [ofValue_of_no_externalId harray hv]
  | some x =>
    have hx := Json.isBlank_of_externalId? hv
    rw [ofValue_of_externalId? hv, ofText_lenient hlenient htotal field table hx ht]
    rfl

end

mutual

theorem ofValue_lenient (hlenient : e.settings.externalIdMode = .lenient)
    (htotal : ∀ table x, e.externalIds.resolve table x w = .ok (answers table x))
    {t : Translation} (ht : t.error? = none) :
    ∀ v, ofValue e w field table t v =
      (v.mapExternalIds (answers.internal table),
        t.tally answers (v.externalIds.map (⟨field, table, ·⟩)))
  | .array items => by
    rw [ofValue, ofItems_lenient hlenient htotal ht items]
    rfl
  | .text _ | .object _ | .null | .boolean _ | .number _ =>
    ofValue_single_lenient hlenient htotal field table ht (by simp)

theorem ofItems_lenient (hlenient : e.settings.externalIdMode = .lenient)
    (htotal : ∀ table x, e.externalIds.resolve table x w = .ok (answers table x))
    {t : Translation} (ht : t.error? = none) :
    ∀ items, ofItems e w field table t items =
      (Json.mapExternalIdsOf (answers.internal table) items,
        t.tally answers ((Json.externalIdsOf items).map (⟨field, table, ·⟩)))
  | [] => by simp [ofItems, Json.mapExternalIdsOf, Json.externalIdsOf]
  | v :: rest => by
    have hv := ofValue_lenient hlenient htotal ht v
    have hrest (asked : List Miss) :=
      ofItems_lenient (t := t.tally answers asked) hlenient htotal ht rest
    simp only [ofItems, hv, hrest, Json.mapExternalIdsOf, Json.externalIdsOf, List.map_append,
      tally_append]

end

end Value

end Translation

/-! ### The ids in a record, field by field -/

namespace Engine

/-- What is looked up as the id of the record itself. -/
def ownLookups (entity : Entity) (record : Record) : List Miss :=
  match record.get? "id" with
  | some (.text s) => (Json.text s).externalIds.map (⟨"id", entity.table, ·⟩)
  | _ => []

/-- What is looked up in a reference field; without its entity there is no table to look in. -/
def fieldLookups (e : Engine) (record : Record) (f : Field) : List Miss :=
  match record.get? f.name, e.related? f with
  | some v, some related => v.externalIds.map (⟨f.name, related.table, ·⟩)
  | _, _ => []

/-- All that is looked up, in order. Each is told as it is where it is missed. -/
def lookups (e : Engine) (entity : Entity) (record : Record) : List Miss :=
  ownLookups entity record ++ entity.referenceFields.flatMap (e.fieldLookups record)

/-- The own id of a record as an internal one; only text is an id there. -/
def internalOwnId (answers : Answers) (table : String) : Json → Json
  | .text s => (Json.text s).mapExternalIds (answers.internal table)
  | v => v

/-- What stands under a name, with the internal ids for the first reference field of that name. -/
def internalReference (e : Engine) (answers : Answers) (fields : List Field) (name : String)
    (v : Json) : Json :=
  match (fields.find? (·.name == name)).bind e.related? with
  | some related => v.mapExternalIds (answers.internal related.table)
  | none => v

def internalValue (e : Engine) (answers : Answers) (entity : Entity) (key : String) (v : Json) :
    Json :=
  if key = "id" then internalOwnId answers entity.table v
  else e.internalReference answers entity.referenceFields key v

variable {e : Engine} {answers : Answers}

theorem internalReference_of_notMem {fields : List Field} {name : String}
    (hname : name ∉ fields.map (·.name)) (v : Json) :
    e.internalReference answers fields name v = v := by
  have hnone : fields.find? (·.name == name) = none := by
    simpa [List.find?_eq_none] using hname
  simp [internalReference, hnone]

/-- A field that shares its name with none after it is all there is to its entry. -/
theorem internalReference_cons {f : Field} {rest : List Field}
    (hf : f.name ∉ rest.map (·.name)) (name : String) (v : Json) :
    e.internalReference answers (f :: rest) name v =
      e.internalReference answers rest name (e.internalReference answers [f] name v) := by
  by_cases hname : f.name = name
  · have hrest (u : Json) : e.internalReference answers rest name u = u :=
      internalReference_of_notMem (hname ▸ hf) u
    rw [hrest]
    simp [internalReference, hname]
  · simp [internalReference, hname]

theorem fieldLookups_mapValues {record : Record} {change : String → Json → Json} {f : Field}
    (h : ∀ v, change f.name v = v) :
    e.fieldLookups (record.mapValues change) f = e.fieldLookups record f := by
  have hsame : change f.name = id := funext h
  rw [fieldLookups, Table.get?_mapValues, hsame, Option.map_id, id_eq]
  rfl

end Engine

namespace Translation

variable {e : Engine} {w : World} {answers : Answers}
  (hlenient : e.settings.externalIdMode = .lenient)
  (htotal : ∀ table x, e.externalIds.resolve table x w = .ok (answers table x))

include hlenient htotal

theorem ofOwnId_lenient (entity : Entity) {record : Record} (hrecord : record.keys.Nodup) :
    ofOwnId e w entity.table record =
      (record.mapValues fun key v =>
          if key = "id" then Engine.internalOwnId answers entity.table v else v,
        { ({} : Translation).tally answers (Engine.ownLookups entity record) with
          deferrals := ((Engine.ownLookups entity record).filter (!answers.knows ·)).map
            fun m => ⟨m.table, m.externalId⟩ }) := by
  rw [Table.mapValues_eq_put (fun key (hkey : key ≠ "id") _ => if_neg hkey) hrecord]
  unfold ofOwnId Engine.ownLookups
  cases hid : record.get? "id" with
  | none => simp
  | some v =>
    cases v with
    | text s =>
      -- As the own id, text is translated as it is in a reference field.
      have htext := ofValue_lenient "id" entity.table hlenient htotal (t := {}) rfl (.text s)
      rw [ofValue, Prod.mk.injEq] at htext
      simp [htext, Engine.internalOwnId, tally]
    | _ => simp [Engine.internalOwnId, Table.put_of_get? hid]

theorem ofField_lenient (f : Field) {record : Record} (hrecord : record.keys.Nodup)
    {t : Translation} (ht : t.error? = none) :
    ofField e w f (record, t) =
      (record.mapValues (e.internalReference answers [f]),
        t.tally answers (e.fieldLookups record f)) := by
  have hothers : ∀ name ≠ f.name, ∀ v, e.internalReference answers [f] name v = v :=
    fun name hname => Engine.internalReference_of_notMem (by simpa using hname)
  rw [Table.mapValues_eq_put hothers hrecord]
  unfold ofField Engine.fieldLookups
  cases hv : record.get? f.name with
  | none => simp [hv]
  | some v =>
    cases hrelated : e.related? f with
    | none => simp [Engine.internalReference, hv, hrelated, Table.put_of_get? hv]
    | some related =>
      have hvalue := ofValue_lenient f.name related.table hlenient htotal ht v
      simp [Engine.internalReference, hv, hrelated, hvalue]

theorem ofFields_lenient {fields : List Field} (hnames : (fields.map (·.name)).Nodup)
    {record : Record} (hrecord : record.keys.Nodup) {t : Translation} (ht : t.error? = none) :
    fields.foldl (fun state f => ofField e w f state) (record, t) =
      (record.mapValues (e.internalReference answers fields),
        t.tally answers (fields.flatMap (e.fieldLookups record))) := by
  induction fields generalizing record t with
  | nil =>
    have hsame : record.mapValues (e.internalReference answers []) = record :=
      Table.mapValues_eq_self fun _ _ => rfl
    simp [hsame]
  | cons f rest ih =>
    obtain ⟨hf, hrest⟩ := List.nodup_cons.mp hnames
    -- What `f` changes is under no name of the fields after it.
    have hlookups : rest.flatMap (e.fieldLookups (record.mapValues
        (e.internalReference answers [f]))) = rest.flatMap (e.fieldLookups record) := by
      refine List.flatMap_congr fun g hg => Engine.fieldLookups_mapValues fun v => ?_
      refine Engine.internalReference_of_notMem ?_ v
      rw [List.map_singleton, List.mem_singleton]
      exact fun hname => hf (List.mem_map.mpr ⟨g, hg, hname⟩)
    have hkeys : (Table.keys (record.mapValues (e.internalReference answers [f]))).Nodup := by
      simpa using hrecord
    rw [List.foldl_cons, ofField_lenient hlenient htotal f hrecord ht,
      ih hrest hkeys (t := t.tally answers _) ht, Table.mapValues_mapValues, hlookups,
      List.flatMap_cons, tally_append]
    simp only [← Engine.internalReference_cons hf]

/-- Lenient translation never fails. Every id is replaced that is known, everything else stays where
and as it was, and the report accounts for each look-up: it is known and counted or listed as a
miss, and the own id of the record waits to be bound exactly if it was missed. -/
theorem translate_lenient {entity : Entity} (hnames : (entity.fields.map (·.name)).Nodup)
    (hid : ∀ f ∈ entity.referenceFields, f.name ≠ "id") {record : Record}
    (hrecord : record.keys.Nodup) :
    e.translate w entity record =
      (record.mapValues (e.internalValue answers entity),
        { replaced := (e.lookups entity record).countP answers.knows
          misses := (e.lookups entity record).filter (!answers.knows ·)
          deferrals := ((Engine.ownLookups entity record).filter (!answers.knows ·)).map
            fun m => ⟨m.table, m.externalId⟩
          error? := none }) := by
  have hreferences : (entity.referenceFields.map (·.name)).Nodup :=
    hnames.sublist (List.filter_sublist.map _)
  have hlookups : entity.referenceFields.flatMap (e.fieldLookups (record.mapValues fun key v =>
      if key = "id" then Engine.internalOwnId answers entity.table v else v)) =
      entity.referenceFields.flatMap (e.fieldLookups record) :=
    List.flatMap_congr fun f hf => Engine.fieldLookups_mapValues fun _ => if_neg (hid f hf)
  have hvalue : e.internalValue answers entity = fun key v =>
      e.internalReference answers entity.referenceFields key
        (if key = "id" then Engine.internalOwnId answers entity.table v else v) := by
    funext key v
    unfold Engine.internalValue
    split
    · next hkey =>
      refine (Engine.internalReference_of_notMem ?_ _).symm
      intro hmem
      obtain ⟨f, hf, rfl⟩ := List.mem_map.mp hmem
      exact hid f hf hkey
    · rfl
  rw [Engine.translate, ofOwnId_lenient hlenient htotal entity hrecord,
    ofFields_lenient hlenient htotal hreferences (by simpa using hrecord) rfl,
    Table.mapValues_mapValues, hlookups, hvalue]
  simp [tally, Engine.lookups]

end Translation

namespace Sample

/-- Only one external id is known: that of a category. -/
def bound : World := { World.empty with bindings := [(("209", "EXT-C1"), "C1")] }

/-- A product in several categories, which are referred to in every shape. -/
def manifold : Record := [
  ("id", .text "EXT-P1"),
  ("category", .array [
    .text "EXT-C1",
    .array [.object [("name", .text "Tools"), ("id", .text "EXT-C1")], .text " "],
    .object [("id", .text "EXT-C2")]]),
  ("name", .text "EXT-C1")]

end Sample

namespace Translation

open Sample

theorem translate_manifold : engine.settings.externalIdMode = .lenient ∧
    (productEntity.fields.map (·.name)).Nodup ∧
    (∀ f ∈ productEntity.referenceFields, f.name ≠ "id") ∧ manifold.keys.Nodup ∧
    engine.translate bound productEntity manifold =
      ([("id", .text "EXT-P1"),
        ("category", .array [
          .text "C1",
          .array [.object [("name", .text "Tools"), ("id", .text "C1")], .text " "],
          .object [("id", .text "EXT-C2")]]),
        ("name", .text "EXT-C1")],
        { replaced := 2
          misses := [⟨"id", "208", "EXT-P1"⟩, ⟨"category", "209", "EXT-C2"⟩]
          deferrals := [⟨"208", "EXT-P1"⟩] }) := by
  have hnames : (productEntity.fields.map (·.name)).Nodup := by decide +kernel
  have hid : ∀ f ∈ productEntity.referenceFields, f.name ≠ "id" := by decide +kernel
  have hrecord : manifold.keys.Nodup := by decide +kernel
  have htotal (table x : String) : engine.externalIds.resolve table x bound =
      .ok (bound.bindings.get? (table, x)) := rfl
  refine ⟨rfl, hnames, hid, hrecord, ?_⟩
  rw [translate_lenient rfl htotal hnames hid hrecord]
  rfl

end Translation

end Fieldwise
