import Fieldwise.Proofs.ExternalId.Lenient

/-!
Strict and lenient translation of one record, side by side. Up to the first miss they are the same;
with it strict translation fails, and from then on its report stays as it is, while lenient
translation goes on and only adds to its misses. So what the two come to is decided by one step from
where they are still the same, and by what every later step keeps.
-/

namespace Fieldwise

def Engine.withMode (e : Engine) (mode : ExternalIdMode) : Engine :=
  { e with settings := { e.settings with externalIdMode := mode } }

namespace Translation

variable {α β : Type} {e : Engine} {w : World}

/-! ### Strict translation follows lenient translation -/

/-- Where lenient translation stands, and where strict translation of the same stands. -/
inductive Follows : (lenient strict : α × Translation) → Prop
  /-- Nothing has been missed, and nothing tells the two apart. -/
  | same {state : α × Translation} (herror : state.2.error? = none)
    (hmisses : state.2.misses = []) : Follows state state
  /-- Strict translation has failed with what lenient translation missed first. -/
  | missed {lenient strict : α × Translation} {m : Miss} (herror : lenient.2.error? = none)
    (hfirst : lenient.2.misses.head? = some m)
    (hfailed : strict.2.error? = some (.externalIdNotFound m.table m.externalId)) :
    Follows lenient strict

/-- Misses are only added, and nothing fails. -/
def Records (t t' : Translation) : Prop :=
  t.misses <+: t'.misses ∧ (t.error? = none → t'.error? = none)

/-- What has failed has failed for good. -/
def Persists (t t' : Translation) : Prop :=
  ∀ error, t.error? = some error → t'.error? = some error

theorem accumulates_persists (e : Engine) (w : World) : Accumulates e w Persists where
  refl _ _ h := h
  trans h h' error herror := h' error (h error herror)
  ofText _ _ _ _ _ herror := by simp [ofText, herror]

theorem accumulates_records {answers : Answers}
    (htotal : ∀ table x, e.externalIds.resolve table x w = .ok (answers table x)) :
    Accumulates (e.withMode .lenient) w Records where
  refl _ := ⟨List.prefix_rfl, id⟩
  trans h h' := ⟨h.1.trans h'.1, h'.2 ∘ h.2⟩
  ofText field table s t := by
    unfold ofText
    split
    · exact ⟨List.prefix_rfl, id⟩
    · rw [lookup_lenient (e := e.withMode .lenient) rfl htotal]
      cases answers table s with
      | some y => exact ⟨List.prefix_rfl, id⟩
      | none => exact ⟨List.prefix_append .., id⟩

namespace Follows

variable {lenient strict : α × Translation}

theorem map (change : α → β) (h : Follows lenient strict) :
    Follows (change lenient.1, lenient.2) (change strict.1, strict.2) := by
  cases h with
  | same herror hmisses => exact .same herror hmisses
  | missed herror hfirst hfailed => exact .missed herror hfirst hfailed

/-- One step more: it matters what it does where the two are the same, and that it keeps what there
is once they are not. -/
theorem step (h : Follows lenient strict) (next next' : α × Translation → β × Translation)
    (hrecords : ∀ state, Records state.2 (next state).2)
    (hpersists : ∀ state, Persists state.2 (next' state).2)
    (hfork : ∀ state, state.2.error? = none → state.2.misses = [] →
      Follows (next state) (next' state)) : Follows (next lenient) (next' strict) := by
  cases h with
  | same herror hmisses => exact hfork _ herror hmisses
  | @missed _ m herror hfirst hfailed =>
    obtain ⟨more, hmore⟩ := (hrecords lenient).1
    refine .missed (m := m) ((hrecords lenient).2 herror) ?_ (hpersists strict _ hfailed)
    rw [← hmore, List.head?_append, hfirst, Option.some_or]

end Follows

/-! ### From the look-up of one id to a whole record -/

section Steps

variable {answers : Answers}
  (htotal : ∀ table x, e.externalIds.resolve table x w = .ok (answers table x))

include htotal

theorem lookup_strict (table s : String) : lookup (e.withMode .strict) w table s =
    match answers table s with
    | some y => .ok (some y)
    | none => .error (.externalIdNotFound table s) := by
  have hanswer : (e.withMode .strict).externalIds.resolve table s w = .ok (answers table s) :=
    htotal table s
  simp only [lookup, hanswer]
  cases answers table s <;> rfl

theorem follows_ofText (field table s : String) {t : Translation} (ht : t.error? = none)
    (hmisses : t.misses = []) : Follows (ofText (e.withMode .lenient) w field table s t)
      (ofText (e.withMode .strict) w field table s t) := by
  by_cases hs : Text.isBlank s = true
  · have hsame : Follows (s, t) (s, t) := .same ht hmisses
    simpa [ofText, hs] using hsame
  have hlenient := lookup_lenient (e := e.withMode .lenient) rfl htotal table s
  simp only [ofText, ht, hs, Option.isSome_none, Bool.or_self, Bool.false_eq_true, if_false,
    hlenient, lookup_strict htotal table s]
  cases answers table s with
  | some y => exact .same rfl hmisses
  | none => exact .missed (m := ⟨field, table, s⟩) ht (by simp [miss, hmisses]) rfl

end Steps

def withItems (e : Engine) (w : World) (field table : String) (rest : List Json)
    (state : Json × Translation) : List Json × Translation :=
  let (rest, t) := ofItems e w field table state.2 rest
  (state.1 :: rest, t)

mutual

theorem follows_ofValue {answers : Answers}
    (htotal : ∀ table x, e.externalIds.resolve table x w = .ok (answers table x))
    (field table : String) {t : Translation} (ht : t.error? = none) (hmisses : t.misses = []) :
    ∀ v, Follows (ofValue (e.withMode .lenient) w field table t v)
      (ofValue (e.withMode .strict) w field table t v)
  | .text s => (follows_ofText htotal field table s ht hmisses).map Json.text
  | .object fields => by
    unfold ofValue
    split
    · next s _ =>
      exact (follows_ofText htotal field table s ht hmisses).map
        fun s => Json.object (Table.put "id" (.text s) fields)
    · exact .same ht hmisses
  | .array items => (follows_ofItems htotal field table ht hmisses items).map Json.array
  | .null | .boolean _ | .number _ => .same ht hmisses

theorem follows_ofItems {answers : Answers}
    (htotal : ∀ table x, e.externalIds.resolve table x w = .ok (answers table x))
    (field table : String) {t : Translation} (ht : t.error? = none) (hmisses : t.misses = []) :
    ∀ items, Follows (ofItems (e.withMode .lenient) w field table t items)
      (ofItems (e.withMode .strict) w field table t items)
  | [] => .same ht hmisses
  | v :: rest =>
    (follows_ofValue htotal field table ht hmisses v).step (withItems _ w field table rest)
      (withItems _ w field table rest)
      (fun state => (accumulates_records htotal).ofItems field table state.2 rest)
      (fun state => (accumulates_persists _ w).ofItems field table state.2 rest)
      (fun state ht hmisses => (follows_ofItems htotal field table ht hmisses rest).map
        (state.1 :: ·))

end

section Steps

variable {answers : Answers}
  (htotal : ∀ table x, e.externalIds.resolve table x w = .ok (answers table x))

include htotal

theorem follows_ofOwnId (table : String) (record : Record) :
    Follows (ofOwnId (e.withMode .lenient) w table record)
      (ofOwnId (e.withMode .strict) w table record) := by
  unfold ofOwnId
  split
  · next s _ =>
    have hown := follows_ofText (t := {}) htotal "id" table s rfl rfl
    generalize ofText (e.withMode .lenient) w "id" table s {} = lenient at hown ⊢
    generalize ofText (e.withMode .strict) w "id" table s {} = strict at hown ⊢
    cases hown with
    | same herror hmisses => exact .same herror hmisses
    | missed herror hfirst hfailed => exact .missed herror hfirst hfailed
  · exact .same rfl rfl

theorem follows_ofField (f : Field) (state : Record × Translation) (herror : state.2.error? = none)
    (hmisses : state.2.misses = []) :
    Follows (ofField (e.withMode .lenient) w f state) (ofField (e.withMode .strict) w f state) := by
  obtain ⟨record, t⟩ := state
  simp only [ofField]
  have hrelated : (e.withMode .strict).related? f = (e.withMode .lenient).related? f := rfl
  rw [hrelated]
  split
  · next v related _ _ =>
    exact (follows_ofValue htotal f.name related.table herror hmisses v).map (record.put f.name)
  · exact .same herror hmisses

theorem follows_ofFields {lenient strict : Record × Translation} (h : Follows lenient strict)
    (fields : List Field) :
    Follows (fields.foldl (fun state f => ofField (e.withMode .lenient) w f state) lenient)
      (fields.foldl (fun state f => ofField (e.withMode .strict) w f state) strict) := by
  induction fields generalizing lenient strict with
  | nil => exact h
  | cons f rest ih =>
    exact ih (h.step _ _ ((accumulates_records htotal).ofField f)
      ((accumulates_persists _ w).ofField f) (follows_ofField htotal f))

end Steps

end Translation

namespace Engine

/-- Whatever the metadata, if look-ups do not fail themselves: lenient translation does not fail,
and strict translation is the same where the lenient report lists no miss and fails with the first
of them where it lists some. -/
theorem strict_follows_lenient {e : Engine} {w : World} {answers : Answers}
    (htotal : ∀ table x, e.externalIds.resolve table x w = .ok (answers table x))
    (entity : Entity) (record : Record) :
    ((e.withMode .lenient).translate w entity record).2.error? = none ∧
      (((e.withMode .strict).translate w entity record).2.error? = none ↔
        ((e.withMode .lenient).translate w entity record).2.misses = []) ∧
      (((e.withMode .lenient).translate w entity record).2.misses = [] →
        (e.withMode .strict).translate w entity record =
          (e.withMode .lenient).translate w entity record) ∧
      ∀ m rest, ((e.withMode .lenient).translate w entity record).2.misses = m :: rest →
        ((e.withMode .strict).translate w entity record).2.error? =
          some (.externalIdNotFound m.table m.externalId) := by
  have hfollows : Translation.Follows ((e.withMode .lenient).translate w entity record)
      ((e.withMode .strict).translate w entity record) :=
    Translation.follows_ofFields htotal (Translation.follows_ofOwnId htotal entity.table record)
      entity.referenceFields
  generalize (e.withMode .lenient).translate w entity record = lenient at hfollows ⊢
  generalize (e.withMode .strict).translate w entity record = strict at hfollows ⊢
  cases hfollows with
  | same herror hmisses => simp [herror, hmisses]
  | missed herror hfirst hfailed =>
    obtain ⟨rest, hmisses⟩ := List.head?_eq_some_iff.mp hfirst
    simp [herror, hmisses, hfailed]

/-- The first miss that the lenient report lists is the own id of the record. -/
theorem strict_stops_at_own_id :
    (∀ table x, Sample.engine.externalIds.resolve table x Sample.bound =
      .ok (Sample.bound.bindings.get? (table, x))) ∧
    ((Sample.engine.withMode .strict).translate Sample.bound Sample.productEntity
      Sample.manifold).2.error? = some (.externalIdNotFound "208" "EXT-P1") := by
  have htotal (table x : String) : Sample.engine.externalIds.resolve table x Sample.bound =
      .ok (Sample.bound.bindings.get? (table, x)) := rfl
  obtain ⟨-, -, -, hfirst⟩ := strict_follows_lenient htotal Sample.productEntity Sample.manifold
  exact ⟨htotal, hfirst ⟨"id", "208", "EXT-P1"⟩ [⟨"category", "209", "EXT-C2"⟩] rfl⟩

end Engine

end Fieldwise
