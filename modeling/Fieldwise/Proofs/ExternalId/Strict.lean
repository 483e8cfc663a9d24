import Fieldwise.Proofs.ExternalId.Translated
import Fieldwise.Proofs.Outcome
import Fieldwise.Sample.Engine

/-!
What strict mode guards. Two functions say which ids a value refers to: one for the ids that are
looked up when a record is translated, one for those that reference fields are written with. They
do not agree: only text is looked up, and as it stands, while numbers and nested objects are ids
as well and white space around an id does not count. Strict mode lets no unknown id through exactly
where each id that is written has been looked up.
-/

namespace Fieldwise

/-! ### The ids in a value -/

namespace Json

/-- The ids that a reference field is written with: one, or one for each item of an array. -/
def referenceIds : Json → List String
  | .array items => items.filterMap referenceId?
  | v => v.referenceId?.toList

mutual

/-- The ids that are looked up when a value is translated. -/
def externalIds : Json → List String
  | .array items => externalIdsOf items
  | v => v.externalId?.toList

def externalIdsOf : List Json → List String
  | [] => []
  | v :: rest => v.externalIds ++ externalIdsOf rest

end

theorem mem_externalIds {v : Json} {x : String} (harray : ∀ items, v ≠ .array items) :
    x ∈ v.externalIds ↔ v.externalId? = some x := by
  rw [externalIds, Option.mem_toList]
  exact harray

/-- A single id that is looked up is written as well, without the white space around it. -/
theorem referenceId?_of_externalId? {v : Json} {x : String} (hx : v.externalId? = some x) :
    v.referenceId? = some (Text.trim x) := by
  have htext {s : String} (hs : (if Text.isBlank s then none else some s) = some x) :
      (text s).referenceId? = some (Text.trim x) := by
    split at hs
    · cases hs
    · next hblank =>
      obtain rfl := Option.some.inj hs
      simp [referenceId?, hblank]
  cases v with
  | text s => exact htext hx
  | object fields =>
    simp only [externalId?] at hx
    split at hx
    · next s hs =>
      rw [referenceId?, entryReferenceId?_eq, hs]
      exact htext hx
    · cases hx
  | _ => cases hx

/-- Both find the same in text that has no white space around it, alone or as the entry `id`. -/
theorem mem_externalIds_of_referenceIds {v : Json} {x : String} (hx : v.externalId? = some x)
    (htrim : Text.trim x = x) : ∀ id ∈ v.referenceIds, id ∈ v.externalIds := by
  have harray : ∀ items, v ≠ .array items := by
    rintro items rfl
    cases hx
  intro id hid
  rw [referenceIds, referenceId?_of_externalId? hx, htrim, Option.mem_toList] at hid
  · rwa [mem_externalIds harray, hx]
  · exact harray

theorem externalId?_withId {v : Json} {x y : String} (hx : v.externalId? = some x)
    (hy : Text.isBlank y = false) : (v.withId y).externalId? = some y := by
  cases v with
  | text s => simp [withId, externalId?, hy]
  | object fields => simp [withId, externalId?, hy]
  | _ => cases hx

end Json

def ExternalIds.Resolves (ids : ExternalIds) (w : World) (table x : String) : Prop :=
  ∃ y, ids.resolve table x w = .ok (some y)

open Classical in
/-- External ids that know some, all of which stand for `y`. -/
noncomputable def ExternalIds.knowing (knows : (table x : String) → Prop) (y : String) :
    ExternalIds where
  resolve table x _ := .ok (if knows table x then some y else none)
  bind _ _ _ := pure ()

namespace ExternalIds

variable {knows : (table x : String) → Prop} {w : World} {table x y : String}

theorem resolve_knowing (h : knows table x) :
    (knowing knows y).resolve table x w = .ok (some y) := by
  simp [knowing, h]

theorem resolves_knowing : (knowing knows y).Resolves w table x ↔ knows table x := by
  constructor
  · rintro ⟨z, hz⟩
    by_contra hunknown
    simp [knowing, hunknown] at hz
  · exact fun h => ⟨y, resolve_knowing h⟩

end ExternalIds

theorem Text.exists_not_blank_ne (s : String) : ∃ y, isBlank y = false ∧ s ≠ y := by
  by_cases hs : s = "a"
  · exact ⟨"b", by decide +kernel, by simp [hs]⟩
  · exact ⟨"a", by decide +kernel, hs⟩

/-! ### What is looked up must resolve -/

namespace Translation

variable {e : Engine} {w : World} {field table : String}

theorem resolves_of_lookup (hstrict : e.settings.externalIdMode = .strict) {x : String}
    {found : Option String} (h : lookup e w table x = .ok found) :
    e.externalIds.Resolves w table x := by
  obtain ⟨answer, hanswer, h⟩ := except_bind_eq_ok.mp h
  cases answer with
  | some y => exact ⟨y, hanswer⟩
  | none =>
    rw [hstrict] at h
    cases h

theorem resolves_of_ofText (hstrict : e.settings.externalIdMode = .strict) {s : String}
    {t : Translation} (hs : Text.isBlank s = false)
    (herror : (ofText e w field table s t).2.error? = none) :
    e.externalIds.Resolves w table s := by
  have ht : t.error? = none := ((accumulates_continues e w).ofText field table s t).2 herror
  simp only [ofText, ht, hs, Option.isSome_none, Bool.or_self, Bool.false_eq_true, if_false]
    at herror
  split at herror
  · next hfound => exact resolves_of_lookup hstrict hfound
  · next hfound => exact resolves_of_lookup hstrict hfound
  · cases herror

theorem resolves_of_externalId? (hstrict : e.settings.externalIdMode = .strict)
    {t : Translation} {v : Json} {x : String} (hx : v.externalId? = some x)
    (herror : (ofValue e w field table t v).2.error? = none) :
    e.externalIds.Resolves w table x := by
  rw [ofValue_of_externalId? hx] at herror
  exact resolves_of_ofText hstrict (Json.isBlank_of_externalId? hx) herror

mutual

theorem resolves_of_ofValue (hstrict : e.settings.externalIdMode = .strict) {t : Translation} :
    ∀ v, (ofValue e w field table t v).2.error? = none →
      ∀ x ∈ v.externalIds, e.externalIds.Resolves w table x
  | .array items => resolves_of_ofItems hstrict items
  | .text _ | .object _ | .null | .boolean _ | .number _ => fun herror _ hx =>
    resolves_of_externalId? hstrict ((Json.mem_externalIds (by simp)).mp hx) herror

theorem resolves_of_ofItems (hstrict : e.settings.externalIdMode = .strict) {t : Translation} :
    ∀ items, (ofItems e w field table t items).2.error? = none →
      ∀ x ∈ Json.externalIdsOf items, e.externalIds.Resolves w table x
  | [] => fun _ _ hx => nomatch hx
  | v :: rest => fun herror x hx => by
    rcases List.mem_append.mp hx with hx | hx
    · have hv := ((accumulates_continues e w).ofItems field table _ rest).2 herror
      exact resolves_of_ofValue hstrict v hv x hx
    · exact resolves_of_ofItems hstrict rest herror x hx

end

/-! ### Where every id that is looked up stands for `y` -/

section Resolved

variable {y : String}

theorem ofText_of_resolved {t : Translation} {s : String} (ht : t.error? = none)
    (hs : Text.isBlank s = false) (hresolved : e.externalIds.resolve table s w = .ok (some y)) :
    ofText e w field table s t = (y, { t with replaced := t.replaced + 1 }) := by
  have hfound : lookup e w table s = .ok (some y) := by
    simp only [lookup, hresolved]
    rfl
  simp [ofText, ht, hs, hfound]

theorem ofValue_single_of_resolved (field : String) {t : Translation} {v : Json}
    (ht : t.error? = none) (hy : Text.isBlank y = false) (harray : ∀ items, v ≠ .array items)
    (hresolved : ∀ x ∈ v.externalIds, e.externalIds.resolve table x w = .ok (some y)) :
    (ofValue e w field table t v).2.error? = none ∧
      ∀ x ∈ (ofValue e w field table t v).1.externalIds, x = y := by
  cases hv : v.externalId? with
  | none =>
    rw [ofValue_of_no_externalId harray hv]
    exact ⟨ht, by simp [Json.mem_externalIds harray, hv]⟩
  | some x =>
    have hx := hresolved x ((Json.mem_externalIds harray).mpr hv)
    rw [ofValue_of_externalId? hv, ofText_of_resolved ht (Json.isBlank_of_externalId? hv) hx]
    refine ⟨ht, fun x' hx' => ?_⟩
    rw [Json.mem_externalIds, Json.externalId?_withId hv hy] at hx'
    · exact (Option.some.inj hx').symm
    · cases v <;> simp_all [Json.withId]

mutual

theorem ofValue_of_resolved (field : String) (hy : Text.isBlank y = false) {t : Translation}
    (ht : t.error? = none) : ∀ v,
      (∀ x ∈ v.externalIds, e.externalIds.resolve table x w = .ok (some y)) →
      (ofValue e w field table t v).2.error? = none ∧
        ∀ x ∈ (ofValue e w field table t v).1.externalIds, x = y
  | .array items => ofItems_of_resolved field hy ht items
  | .text _ | .object _ | .null | .boolean _ | .number _ =>
    ofValue_single_of_resolved field ht hy (by simp)

theorem ofItems_of_resolved (field : String) (hy : Text.isBlank y = false) {t : Translation}
    (ht : t.error? = none) : ∀ items,
      (∀ x ∈ Json.externalIdsOf items, e.externalIds.resolve table x w = .ok (some y)) →
      (ofItems e w field table t items).2.error? = none ∧
        ∀ x ∈ Json.externalIdsOf (ofItems e w field table t items).1, x = y
  | [] => fun _ => ⟨ht, fun _ hx => nomatch hx⟩
  | v :: rest => fun hresolved => by
    obtain ⟨herror, hv⟩ := ofValue_of_resolved field hy ht v fun x hx =>
      hresolved x (List.mem_append_left _ hx)
    obtain ⟨herror, hrest⟩ := ofItems_of_resolved field hy herror rest fun x hx =>
      hresolved x (List.mem_append_right _ hx)
    exact ⟨herror, fun x hx => (List.mem_append.mp hx).elim (hv x) (hrest x)⟩

end

end Resolved

end Translation

/-! ### The ids in a record -/

namespace Engine

/-- The id is one that reference fields of the entity are written with, for objects of the
table. -/
def Takes (e : Engine) (entity : Entity) (record : Record) (table id : String) : Prop :=
  ∃ f ∈ entity.referenceFields, ∃ related v, e.related? f = some related ∧
    related.table = table ∧ record.get? f.name = some v ∧ id ∈ v.referenceIds

/-- Neither the own id of the record nor any of the fields is translated in that entry. -/
def Untouched (e : Engine) (record : Record) (fields : List Field) (key : String) : Prop :=
  (key = "id" → ∀ s, record.get? "id" ≠ some (.text s)) ∧
    ∀ f ∈ fields, f.name = key → e.related? f = none

theorem Untouched.concat {e : Engine} {record : Record} {fields : List Field} {key : String}
    {f : Field} (h : e.Untouched record fields key) (hf : f.name = key → e.related? f = none) :
    e.Untouched record (fields ++ [f]) key := by
  refine ⟨h.1, fun g hg => ?_⟩
  rcases List.mem_append.mp hg with hg | hg
  · exact h.2 g hg
  · rwa [List.mem_singleton.mp hg]

/-- The id is one that is looked up in the record as it was given. -/
inductive Asks (e : Engine) (entity : Entity) (record : Record) : (table id : String) → Prop
  | own {s : String} (hid : record.get? "id" = some (.text s)) (hs : Text.isBlank s = false) :
    Asks e entity record entity.table s
  | reference {before after : List Field} {f : Field} {related : Entity} {v : Json} {x : String}
    (hfields : entity.referenceFields = before ++ f :: after)
    (hrelated : e.related? f = some related) (huntouched : e.Untouched record before f.name)
    (hv : record.get? f.name = some v) (hx : x ∈ v.externalIds) :
    Asks e entity record related.table x

def withExternalIds (e : Engine) (ids : ExternalIds) : Engine := { e with externalIds := ids }

theorem asks_withExternalIds {e : Engine} {ids : ExternalIds} {entity : Entity} {record : Record}
    {table id : String} :
    (e.withExternalIds ids).Asks entity record table id ↔ e.Asks entity record table id := by
  constructor <;> intro h <;> cases h
  case mp.own hid hs => exact .own hid hs
  case mpr.own hid hs => exact .own hid hs
  case mp.reference hfields hrelated huntouched hv hx =>
    exact .reference hfields hrelated huntouched hv hx
  case mpr.reference hfields hrelated huntouched hv hx =>
    exact .reference hfields hrelated huntouched hv hx

end Engine

namespace Translation

variable {e : Engine} {w : World} {entity : Entity} {record : Record}

theorem ofField_of_unrelated {f : Field} (h : e.related? f = none)
    (state : Record × Translation) : ofField e w f state = state := by
  obtain ⟨record, t⟩ := state
  simp [ofField, h]

theorem get?_of_untouched {fields : List Field} {key : String}
    (h : e.Untouched record fields key) (table : String) :
    (fields.foldl (fun state f => ofField e w f state) (ofOwnId e w table record)).1.get? key =
      record.get? key := by
  have hown : (ofOwnId e w table record).1.get? key = record.get? key := by
    by_cases hkey : key = "id"
    · unfold ofOwnId
      split
      · next s hs => exact absurd hs (h.1 hkey s)
      · rfl
    · exact get?_ofOwnId hkey table record
  rw [← hown]
  obtain ⟨-, hfields⟩ := h
  generalize ofOwnId e w table record = state
  induction fields generalizing state with
  | nil => rfl
  | cons f rest ih =>
    rw [List.forall_mem_cons] at hfields
    rw [List.foldl_cons, ih hfields.2]
    by_cases hname : f.name = key
    · rw [ofField_of_unrelated (hfields.1 hname)]
    · exact get?_ofField_of_ne (Ne.symm hname) state

/-- Without an error, whatever has been looked up stands for an internal id. -/
theorem resolves_of_asks (hstrict : e.settings.externalIdMode = .strict)
    (herror : (e.translate w entity record).2.error? = none) {table x : String}
    (hasks : e.Asks entity record table x) : e.externalIds.Resolves w table x := by
  cases hasks with
  | own hid hs =>
    have hown := (continues_translate e w entity record).2 herror
    simp only [ofOwnId, hid] at hown
    exact resolves_of_ofText hstrict hs hown
  | @reference before after f related v _ hfields hrelated huntouched hv hx =>
    unfold Engine.translate at herror
    rw [hfields, List.foldl_append, List.foldl_cons] at herror
    have hfield := ((accumulates_continues e w).ofFields after _).2 herror
    have hmet := (get?_of_untouched (w := w) huntouched entity.table).trans hv
    generalize before.foldl _ (ofOwnId e w entity.table record) = state at hfield hmet
    obtain ⟨record', t⟩ := state
    simp only [ofField, hmet, hrelated] at hfield
    exact resolves_of_ofValue hstrict v hfield x hx

/-- Between two fields: nothing has failed, and an entry either is as it was given, or nothing is
left in it to look up but `y`. -/
structure Progress (e : Engine) (record : Record) (y : String) (done : List Field)
    (state : Record × Translation) : Prop where
  noError : state.2.error? = none
  entries : ∀ key v, state.1.get? key = some v → (∀ x ∈ v.externalIds, x = y) ∨
    e.Untouched record done key ∧ record.get? key = some v

variable {y : String}

theorem progress_ofOwnId (hy : Text.isBlank y = false)
    (hresolved : ∀ table x, e.Asks entity record table x →
      e.externalIds.resolve table x w = .ok (some y)) :
    Progress e record y [] (ofOwnId e w entity.table record) := by
  by_cases hown : ∃ s, record.get? "id" = some (.text s)
  · obtain ⟨s, hs⟩ := hown
    have hasks : ∀ x ∈ (Json.text s).externalIds,
        e.externalIds.resolve entity.table x w = .ok (some y) := by
      intro x hx
      rw [Json.mem_externalIds (by simp)] at hx
      have hblank := Json.isBlank_of_externalId? hx
      obtain rfl : s = x := by simp_all [Json.externalId?]
      exact hresolved _ _ (.own hs hblank)
    -- The own id is translated like a value that is text.
    have hvalue := ofValue_of_resolved (t := {}) "id" hy rfl (.text s) hasks
    simp only [ofOwnId, hs]
    refine ⟨hvalue.1, fun key v hv => ?_⟩
    by_cases hkey : key = "id"
    · subst hkey
      rw [Table.get?_put_self] at hv
      cases hv
      exact .inl hvalue.2
    · rw [Table.get?_put_of_ne hkey] at hv
      exact .inr ⟨⟨fun h => absurd h hkey, by simp⟩, hv⟩
  · have hsame : ofOwnId e w entity.table record = (record, {}) := by
      unfold ofOwnId
      split
      · next s hs => exact absurd ⟨s, hs⟩ hown
      · rfl
    rw [hsame]
    exact ⟨rfl, fun key v hv => .inr ⟨⟨fun _ s hs => hown ⟨s, hs⟩, by simp⟩, hv⟩⟩

theorem Progress.ofField {done after : List Field} {f : Field} {state : Record × Translation}
    (h : Progress e record y done state) (hfields : entity.referenceFields = done ++ f :: after)
    (hy : Text.isBlank y = false)
    (hresolved : ∀ table x, e.Asks entity record table x ∨ x = y →
      e.externalIds.resolve table x w = .ok (some y)) :
    Progress e record y (done ++ [f]) (ofField e w f state) := by
  obtain ⟨record', t⟩ := state
  have hstays (key : String) (v : Json) (hv : record'.get? key = some v)
      (hkey : f.name = key → e.related? f = none) : (∀ x ∈ v.externalIds, x = y) ∨
        e.Untouched record (done ++ [f]) key ∧ record.get? key = some v :=
    (h.entries key v hv).imp_right fun ⟨huntouched, heq⟩ => ⟨huntouched.concat hkey, heq⟩
  cases hrelated : e.related? f with
  | none =>
    rw [ofField_of_unrelated hrelated]
    exact ⟨h.noError, fun key v hv => hstays key v hv fun _ => hrelated⟩
  | some related =>
    cases hmet : record'.get? f.name with
    | none =>
      simp only [Translation.ofField, hmet]
      refine ⟨h.noError, fun key v hv => hstays key v hv fun hname => ?_⟩
      rw [← hname, hmet] at hv
      cases hv
    | some met =>
      have hlooked : ∀ x ∈ met.externalIds,
          e.externalIds.resolve related.table x w = .ok (some y) := by
        intro x hx
        rcases h.entries f.name met hmet with hdone | ⟨huntouched, hv⟩
        · exact hresolved _ _ (.inr (hdone x hx))
        · exact hresolved _ _ (.inl (.reference hfields hrelated huntouched hv hx))
      obtain ⟨herror, hids⟩ := ofValue_of_resolved f.name hy h.noError met hlooked
      simp only [Translation.ofField, hmet, hrelated]
      refine ⟨herror, fun key v hv => ?_⟩
      by_cases hname : f.name = key
      · subst hname
        rw [Table.get?_put_self] at hv
        cases hv
        exact .inl hids
      · rw [Table.get?_put_of_ne (Ne.symm hname)] at hv
        exact hstays key v hv fun h => absurd h hname

theorem Progress.ofFields {done after : List Field} {state : Record × Translation}
    (h : Progress e record y done state) (hfields : entity.referenceFields = done ++ after)
    (hy : Text.isBlank y = false)
    (hresolved : ∀ table x, e.Asks entity record table x ∨ x = y →
      e.externalIds.resolve table x w = .ok (some y)) :
    Progress e record y (done ++ after)
      (after.foldl (fun state f => Translation.ofField e w f state) state) := by
  induction after generalizing done state with
  | nil => simpa using h
  | cons f rest ih =>
    have hnext := h.ofField hfields hy hresolved
    simpa using ih hnext (by simpa using hfields)

/-- Nothing fails where all that is looked up stands for one id, which stands for itself. -/
theorem translate_of_resolved (hy : Text.isBlank y = false)
    (hresolved : ∀ table x, e.Asks entity record table x ∨ x = y →
      e.externalIds.resolve table x w = .ok (some y)) :
    (e.translate w entity record).2.error? = none := by
  have hown := progress_ofOwnId hy fun table x hasks => hresolved table x (.inl hasks)
  exact (hown.ofFields (List.nil_append _).symm hy hresolved).noError

end Translation

namespace Engine

/-- Whatever external ids there are, strict mode lets no unknown id through to a reference field:
that is so of a record exactly if each id that reference fields are written with is one that is
looked up in it, for the same table. -/
theorem strict_translation_iff {e : Engine} (hstrict : e.settings.externalIdMode = .strict)
    (entity : Entity) (record : Record) :
    (∀ (ids : ExternalIds) (w : World),
      ((e.withExternalIds ids).translate w entity record).2.error? = none →
        ∀ table id, e.Takes entity record table id → ids.Resolves w table id) ↔
    ∀ table id, e.Takes entity record table id → e.Asks entity record table id := by
  constructor
  · intro hguards table id htakes
    obtain ⟨y, hy, hne⟩ := Text.exists_not_blank_ne id
    -- The external ids know what is looked up, and `y` which stands in its place then.
    have hknown : (ExternalIds.knowing (fun table x => e.Asks entity record table x ∨ x = y)
        y).Resolves .empty table id := by
      refine hguards _ _ (Translation.translate_of_resolved hy fun table x h => ?_) table id htakes
      rw [asks_withExternalIds] at h
      exact ExternalIds.resolve_knowing h
    exact (ExternalIds.resolves_knowing.mp hknown).resolve_right hne
  · intro hcovered ids w herror table id htakes
    exact Translation.resolves_of_asks (e := e.withExternalIds ids) hstrict herror
      (asks_withExternalIds.mpr (hcovered table id htakes))

/-- Where reference fields share no name and none is named `id`, it is enough that the two agree on
each value. -/
theorem asks_of_takes {e : Engine} {entity : Entity} {record : Record}
    (hnames : (entity.referenceFields.map (·.name)).Nodup)
    (hid : ∀ f ∈ entity.referenceFields, f.name ≠ "id")
    (hvalues : ∀ f ∈ entity.referenceFields, ∀ v, record.get? f.name = some v →
      ∀ id ∈ v.referenceIds, id ∈ v.externalIds) {table id : String}
    (h : e.Takes entity record table id) : e.Asks entity record table id := by
  obtain ⟨f, hf, related, v, hrelated, rfl, hv, hid'⟩ := h
  obtain ⟨before, after, hfields⟩ := List.append_of_mem hf
  refine .reference hfields hrelated ⟨fun hname => absurd hname (hid f hf), ?_⟩ hv
    (hvalues f hf v hv id hid')
  intro g hg hname
  rw [hfields, List.map_append, List.map_cons, List.nodup_append] at hnames
  exact absurd hname (hnames.2.2 _ (List.mem_map_of_mem hg) _ List.mem_cons_self)

end Engine

namespace Sample

def strictEngine : Engine := { engine with settings := { externalIdMode := .strict } }

/-- The category is an id in the form of text. -/
def filed : Record := [("sku", .text "A100"), ("category", .text "C1")]

/-- The category is an object with a number as its id. -/
def numbered : Record := [("sku", .text "A100"), ("category", .object [("id", .ofInt 42)])]

theorem related?_category :
    strictEngine.related? (.reference "category" "category" "CAT") = some categoryEntity := rfl

end Sample

namespace Engine

open Sample

theorem filed_guarded : strictEngine.settings.externalIdMode = .strict ∧
    strictEngine.Takes productEntity filed "209" "C1" ∧
    ∀ (ids : ExternalIds) (w : World),
      ((strictEngine.withExternalIds ids).translate w productEntity filed).2.error? = none →
        ∀ table id, strictEngine.Takes productEntity filed table id → ids.Resolves w table id := by
  have hreferences : productEntity.referenceFields = [.reference "category" "category" "CAT"] := by
    decide +kernel
  have hvalue : ∀ id ∈ (Json.text "C1").referenceIds, id ∈ (Json.text "C1").externalIds :=
    Json.mem_externalIds_of_referenceIds rfl (by decide +kernel)
  refine ⟨rfl, ?_, (strict_translation_iff rfl productEntity filed).mpr fun table id =>
    asks_of_takes ?_ ?_ ?_⟩
  · rw [Takes, hreferences]
    refine ⟨_, List.mem_singleton_self _, _, _, related?_category, rfl, rfl, ?_⟩
    exact List.mem_singleton_self _
  · simp [hreferences]
  · simp [hreferences, Field.reference]
  · rw [hreferences]
    intro f hf v hv
    obtain rfl := List.mem_singleton.mp hf
    obtain rfl : Json.text "C1" = v := Option.some.inj hv
    exact hvalue

/-- Nothing stands for 42. As text it is refused, but as a number it is not looked up and is written
as an id all the same. -/
theorem numbered_slips_through : strictEngine.settings.externalIdMode = .strict ∧
    (strictEngine.translate .empty productEntity
      [("sku", .text "A100"), ("category", .object [("id", .text "42")])]).2.error? =
      some (.externalIdNotFound "209" "42") ∧
    (strictEngine.translate .empty productEntity numbered).2.error? = none ∧
    strictEngine.Takes productEntity numbered "209" "42" ∧
    ¬ strictEngine.externalIds.Resolves .empty "209" "42" := by
  refine ⟨rfl, by decide +kernel, by decide +kernel, ?_, ?_⟩
  · refine ⟨.reference "category" "category" "CAT", ?_, categoryEntity,
      .object [("id", .ofInt 42)], related?_category, rfl, rfl, ?_⟩
    · decide +kernel
    · decide +kernel
  · rintro ⟨y, hy⟩
    cases hy

end Engine

end Fieldwise
