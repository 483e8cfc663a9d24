import Fieldwise.Proofs.Registry.Shapes
import Fieldwise.Proofs.Service.Frame

/-!
What a reference field sets its property to. The items of an array are looked up one by one, and
nothing is set before all of them have been: then the property is set once, to the objects that are
there, in the order of the items. A value that carries no id ends it before anything is set.
-/

namespace Fieldwise

/-- A value that is to refer to an object and does not say to which. -/
def Json.lacksId (v : Json) : Bool := !v.isNull && v.referenceId?.isNone

theorem Json.lacksId_iff {v : Json} :
    v.lacksId = true ↔ v.isNull = false ∧ v.referenceId? = none := by
  simp [lacksId]

theorem Json.lacksId_eq_false {v : Json} (hv : v.lacksId = false) :
    v = .null ∨ v.isNull = false ∧ ∃ id, v.referenceId? = some id := by
  cases hid : v.referenceId? with
  | some id =>
    cases v with
    | null => cases hid
    | _ => exact .inr ⟨rfl, id, rfl⟩
  | none =>
    cases v with
    | null => exact .inl rfl
    | _ => exact absurd (lacksId_iff.mpr ⟨rfl, hid⟩) (by simp [hv])

namespace Engine

/-- Whatever is asked for, there is an answer. -/
structure NeverFails (e : Engine) : Prop where
  answersIds : ∀ table externalId w, ∃ answer,
    e.externalIds.resolve table externalId w = .ok answer
  loads : ∀ typeName id w, ∃ found, e.persistence.load typeName id w = .ok found

/-- The object whose id a value carries, as the table or as the store knows it, if it is there. -/
def referent? (e : Engine) (w : World) (table typeName : String) (v : Json) : Option Handle := do
  let id ← v.referenceId?
  match e.persistence.load typeName (e.externalIds.convert table id w) w with
  | .ok found => found
  | .error _ => none

variable {e : Engine} {w : World} {table typeName id : String} {f : Field} {v : Json}
  {before rest items : List Json}

theorem resolve_of_lacksId (hlacks : v.lacksId = true) :
    e.resolve table typeName f v w =
      .error (.error (.typeMismatch f.property "reference id" v.label)) w := by
  simp [resolve, (Json.lacksId_iff.mp hlacks).2]

theorem resolveAll_of_lacksId (hlacks : v.lacksId = true) :
    e.resolveAll table typeName f (v :: rest) w =
      .error (.error (.typeMismatch f.property "reference id" v.label)) w := by
  have hnull : v.isNull = false := (Json.lacksId_iff.mp hlacks).1
  simp [resolveAll, hnull, bind_apply, resolve_of_lacksId hlacks]

namespace NeverFails

variable (he : e.NeverFails)

include he

theorem resolve_of_id (hid : v.referenceId? = some id) :
    e.resolve table typeName f v w = .ok (e.referent? w table typeName v) w := by
  obtain ⟨answer, hanswer⟩ := he.answersIds table id w
  have hinternal : e.internalId table id w = .ok (e.externalIds.convert table id w) w := by
    simp only [internalId, bind_apply, Action.observe, hanswer, Action.lift_ok, pure_apply,
      ExternalIds.convert]
    cases answer <;> rfl
  obtain ⟨found, hfound⟩ := he.loads typeName (e.externalIds.convert table id w) w
  simp [resolve, referent?, hid, bind_apply, hinternal, Action.observe, hfound]

theorem resolveAll_cons (hv : v.lacksId = false) :
    e.resolveAll table typeName f (v :: rest) w =
      (((e.referent? w table typeName v).toList ++ ·) <$>
        e.resolveAll table typeName f rest) w := by
  obtain rfl | ⟨hnull, id, hid⟩ := Json.lacksId_eq_false hv
  · have hnone : e.referent? w table typeName .null = none := by
      simp [referent?, Json.referenceId?]
    simp [resolveAll, Json.isNull, hnone]
  · have hfound : e.resolve table typeName f v w = .ok (e.referent? w table typeName v) w :=
      he.resolve_of_id hid
    simp [resolveAll, hnull, bind_apply, map_apply, hfound]

theorem resolveAll_append (hids : ∀ v ∈ before, v.lacksId = false) :
    e.resolveAll table typeName f (before ++ rest) w =
      ((before.filterMap (e.referent? w table typeName) ++ ·) <$>
        e.resolveAll table typeName f rest) w := by
  induction before with
  | nil => simp
  | cons v before ih =>
    obtain ⟨hv, hbefore⟩ := List.forall_mem_cons.mp hids
    rw [List.cons_append, he.resolveAll_cons hv, map_apply, ih hbefore]
    simp only [map_apply]
    cases e.resolveAll table typeName f rest w with
    | ok found w' => cases hfound : e.referent? w table typeName v <;> simp [hfound]
    | error failure w' => rfl

theorem resolveAll_of_ids (hids : ∀ v ∈ items, v.lacksId = false) :
    e.resolveAll table typeName f items w =
      .ok (items.filterMap (e.referent? w table typeName)) w := by
  rw [← List.append_nil items, he.resolveAll_append hids]
  simp [map_apply, resolveAll]

end NeverFails

variable {related : Entity} {record : Record} {w₁ : World} {h g : Handle} {a : Accessor}
  {set : PropertyValue → BusinessObject → Except Error BusinessObject}

theorem writeEntry_of_reference (hkind : f.kind = .reference) (hv : record.get? f.name = some v) :
    e.writeEntry record h f = e.writeReference h f v := by
  unfold writeEntry
  rw [hv, hkind]
  rfl

section

variable (hrelated : e.related? f = some related)
  (htable : e.typeOfTable related.table w = .ok typeName w₁)

include hrelated htable

/-- An array whose items have all been looked up sets the property to a list. -/
theorem writeReference_of_found {found : List Handle} (hheap : w₁.heap = w.heap)
    (hfound : e.resolveAll related.table typeName f items w₁ = .ok found w₁)
    (hat : e.registry.accessorAt w.heap h f.property = .ok (some (g, a)))
    (hset : a.set? = some set) :
    e.writeReference h f (.array items) w =
      match set (.list (found.map .reference)) (w.heap.get g) with
      | .ok o => .ok () { w₁ with heap := w.heap.put g o }
      | .error err => .error (.error err) w₁ := by
  simp only [writeReference, Json.isNull, Bool.false_eq_true, if_false, hrelated, bind_apply,
    htable, hfound, Action.changeHeap, hheap, Registry.setPath_of_accessorAt hat, Accessor.set,
    hset]
  cases set (.list (found.map .reference)) (w.heap.get g) <;> rfl

theorem writeReference_of_failure {failure : Failure}
    (hfails : e.resolveAll related.table typeName f items w₁ = .error failure w₁) :
    e.writeReference h f (.array items) w = .error failure w₁ := by
  simp only [writeReference, Json.isNull, Bool.false_eq_true, if_false, hrelated, bind_apply,
    htable, hfails]

theorem writeReference_of_none (hid : v.referenceId? = some id)
    (hnone : e.resolve related.table typeName f v w₁ = .ok none w₁) :
    e.writeReference h f v w = .ok () w₁ := by
  cases v with
  | null | boolean | array => cases hid
  | number | text | object =>
    simp only [writeReference, Json.isNull, Bool.false_eq_true, if_false, hrelated, bind_apply,
      htable, hnone, pure_apply]

end

/-- What comes of a reference field whose related objects have a known type. Once that type has been
asked for, an array whose items are null or carry ids sets the property to the list of the objects
that are there for them; an array with an item that carries no id fails at the first of these; and a
single value that carries the id of no object does nothing. Objects differ only as the property has
been set. -/
theorem writeEntry_references (hkind : f.kind = .reference) (hrelated : e.related? f = some related)
    (htype : e.typeNow w related.table = .ok typeName) (he : e.NeverFails)
    (hat : e.registry.accessorAt w.heap h f.property = .ok (some (g, a)))
    (hset : a.set? = some set) (record : Record) :
    ∃ w₁, e.Learns w w₁ ∧
      (∀ items, record.get? f.name = some (.array items) → (∀ v ∈ items, v.lacksId = false) →
        e.writeEntry record h f w =
          match set (.list ((items.filterMap (e.referent? w₁ related.table typeName)).map
            .reference)) (w.heap.get g) with
          | .ok o => .ok () { w₁ with heap := w.heap.put g o }
          | .error err => .error (.error err) w₁) ∧
      (∀ items, record.get? f.name = some (.array items) → (∃ v ∈ items, v.lacksId = true) →
        ∃ v, items.find? (·.lacksId) = some v ∧ e.writeEntry record h f w =
          .error (.error (.typeMismatch f.property "reference id" v.label)) w₁) ∧
      ∀ v id, record.get? f.name = some v → v.referenceId? = some id →
        e.referent? w₁ related.table typeName v = none →
        e.writeEntry record h f w = .ok () w₁ := by
  obtain ⟨w₁, hlearns, htable⟩ := e.answers_typeOfTable w related.table
  rw [htype] at htable
  refine ⟨w₁, hlearns, fun items hv hids => ?_, fun items hv hlacks => ?_,
    fun v id hv hid hmissing => ?_⟩ <;> rw [writeEntry_of_reference hkind hv]
  · exact writeReference_of_found hrelated htable hlearns.heap (he.resolveAll_of_ids hids) hat hset
  · obtain ⟨v, hfirst⟩ := Option.isSome_iff_exists.mp (List.find?_isSome.mpr hlacks)
    obtain ⟨hlast, before, rest, rfl, hbefore⟩ := List.find?_eq_some_iff_append.mp hfirst
    refine ⟨v, hfirst, writeReference_of_failure hrelated htable ?_⟩
    rw [he.resolveAll_append (by simpa using hbefore), map_apply, resolveAll_of_lacksId hlast]
  · refine writeReference_of_none hrelated htable hid ?_
    rw [he.resolve_of_id hid, hmissing]

end Engine

namespace Sample

def products : Field := .reference "products" "products" "PRD"

/-- A category, and two products, one of which is known by another id as well. -/
def stock : World := { World.empty with
  heap := [
    ⟨category.kind, [("id", .text "C1")]⟩,
    ⟨product.kind, [("id", .text "P1")]⟩,
    ⟨product.kind, [("id", .text "P2")]⟩]
  store := [(("Product", "P1"), 1), (("Product", "P2"), 2)]
  bindings := [(("208", "EXT-2"), "P2")] }

/-- Ids in all forms, one of them of nothing and one that comes twice. -/
def mixed : List Json :=
  [.text "P1", .null, .object [("id", .text "P404")], .object [("id", .text "EXT-2")], .text " P1 "]

end Sample

namespace Engine

open Sample

theorem stock_references :
    (∃ w₁, engine.writeEntry [("products", .array mixed)] 0 products stock = .ok () w₁ ∧
      engine.registry.getProperty w₁.heap 0 "products" =
        .ok (.list [.reference 1, .reference 2, .reference 1])) ∧
    (∃ w₁, engine.writeEntry [("products", .array (mixed ++ [.boolean true]))] 0 products stock =
        .error (.error (.typeMismatch "products" "reference id" "boolean")) w₁ ∧
      w₁.heap = stock.heap) ∧
    ∃ w₁, engine.writeEntry [("products", .text "P404")] 0 products stock = .ok () w₁ ∧
      w₁.heap = stock.heap := by
  have hanswers : engine.NeverFails := ⟨fun _ _ _ => ⟨_, rfl⟩, fun _ _ _ => ⟨_, rfl⟩⟩
  have hrelated : engine.related? products = some productEntity := rfl
  have htype : engine.typeNow stock productEntity.table = .ok "Product" := rfl
  have hat : engine.registry.accessorAt stock.heap 0 "products" =
      .ok (some (0, (property "products" (.collection "Product")).accessor "Category")) := rfl
  have hfield (record : Record) :=
    writeEntry_references rfl hrelated htype hanswers hat rfl record
  have hreferent {w₁ : World} (hlearns : engine.Learns stock w₁) :
      engine.referent? w₁ "208" "Product" = engine.referent? stock "208" "Product" := by
    funext v
    simp [referent?, engine, Persistence.inMemory, ExternalIds.convert, ExternalIds.inMemory,
      hlearns.store, hlearns.bindings]
  refine ⟨?_, ?_, ?_⟩
  · obtain ⟨w₁, hlearns, hset, -⟩ := hfield [("products", .array mixed)]
    have hfound : mixed.filterMap (engine.referent? w₁ productEntity.table "Product") =
        [1, 2, 1] := by
      rw [show productEntity.table = "208" from rfl, hreferent hlearns]
      decide +kernel
    have hwrite := hset mixed rfl (by decide +kernel)
    rw [hfound] at hwrite
    exact ⟨_, hwrite, rfl⟩
  · obtain ⟨w₁, hlearns, -, hfails, -⟩ := hfield [("products", .array (mixed ++ [.boolean true]))]
    obtain ⟨v, hfirst, hwrite⟩ := hfails _ rfl ⟨.boolean true, by simp, rfl⟩
    obtain rfl : Json.boolean true = v := Option.some.inj (Eq.trans (by rfl) hfirst)
    exact ⟨w₁, hwrite, hlearns.heap⟩
  · obtain ⟨w₁, hlearns, -, -, hnothing⟩ := hfield [("products", .text "P404")]
    refine ⟨w₁, hnothing (.text "P404") "P404" rfl (by decide +kernel) ?_, hlearns.heap⟩
    rw [show productEntity.table = "208" from rfl, hreferent hlearns]
    decide +kernel

end Engine

end Fieldwise
