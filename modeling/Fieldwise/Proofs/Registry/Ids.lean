import Fieldwise.Proofs.Registry.Cells

/-!
What setting properties does to the ids of objects. Where types show an id as the property `id` and
as no other one, a path that does not end there can be written without a change to any id, whatever
object it leads to.
-/

namespace Fieldwise

namespace Registry

/-- The kind of what a registered type makes. -/
def Makes (r : Registry) (kind : ObjectKind) : Prop :=
  ∃ name type, r.type? name = some type ∧ type.create.kind = kind

/-- Objects that registered types make take an id that they are given. They stay of their kind, and
setting the property `id` is the only way to another id. -/
structure GuardsIds (r : Registry) : Prop where
  takesId : ∀ kind, r.Makes kind → ∀ id cells, kind.id? (kind.setId id cells) = some id
  keepsKind : ∀ property o o', r.Makes o.kind → r.Turns property o o' → o'.kind = o.kind
  keepsId : ∀ property o o', r.Makes o.kind → r.Turns property o o' → property ≠ "id" →
    o'.id? = o.id?

end Registry

/-- What registered types have made is of its kind as before, and has its id unless it is said to be
loose. -/
structure Heap.KeepsIds (r : Registry) (loose : Handle → Prop) (heap heap' : Heap) : Prop where
  length : heap.length ≤ heap'.length
  kind : ∀ g < heap.length, r.Makes (heap.get g).kind → (heap'.get g).kind = (heap.get g).kind
  id : ∀ g < heap.length, r.Makes (heap.get g).kind → ¬ loose g →
    (heap'.get g).id? = (heap.get g).id?

namespace Heap.KeepsIds

variable {r : Registry} {loose loose' : Handle → Prop} {heap heap' heap'' : Heap}

theorem refl (heap : Heap) : heap.KeepsIds r loose heap :=
  ⟨Nat.le_refl _, fun _ _ _ => rfl, fun _ _ _ _ => rfl⟩

theorem trans (h : heap.KeepsIds r loose heap') (h' : heap'.KeepsIds r loose heap'') :
    heap.KeepsIds r loose heap'' := by
  have hmakes (g : Handle) (hg : g < heap.length) (hmade : r.Makes (heap.get g).kind) :
      g < heap'.length ∧ r.Makes (heap'.get g).kind :=
    ⟨Nat.lt_of_lt_of_le hg h.length, (h.kind g hg hmade).symm ▸ hmade⟩
  refine ⟨Nat.le_trans h.length h'.length, fun g hg hmade => ?_, fun g hg hmade hfixed => ?_⟩
  · obtain ⟨hg', hmade'⟩ := hmakes g hg hmade
    exact (h'.kind g hg' hmade').trans (h.kind g hg hmade)
  · obtain ⟨hg', hmade'⟩ := hmakes g hg hmade
    exact (h'.id g hg' hmade' hfixed).trans (h.id g hg hmade hfixed)

theorem mono (h : heap.KeepsIds r loose heap') (hloose : ∀ g, loose g → loose' g) :
    heap.KeepsIds r loose' heap' :=
  ⟨h.length, h.kind, fun g hg hmade hfixed => h.id g hg hmade fun hg => hfixed (hloose g hg)⟩

theorem of_extends (h : heap <+: heap') : heap.KeepsIds r loose heap' where
  length := h.length_le
  kind g hg _ := by rw [get_of_extends h hg]
  id g hg _ _ := by rw [get_of_extends h hg]

theorem put {h : Handle} {o : BusinessObject}
    (hkind : r.Makes (heap.get h).kind → o.kind = (heap.get h).kind)
    (hid : r.Makes (heap.get h).kind → ¬ loose h → o.id? = (heap.get h).id?) :
    heap.KeepsIds r loose (heap.put h o) := by
  refine ⟨Nat.le_of_eq (length_put ..).symm, ?_, ?_⟩
  · exact forall_get_put
      (P := fun g o' => r.Makes (heap.get g).kind → o'.kind = (heap.get g).kind)
      hkind fun _ _ _ => rfl
  · exact forall_get_put
      (P := fun g o' => r.Makes (heap.get g).kind → ¬ loose g → o'.id? = (heap.get g).id?)
      hid fun _ _ _ _ => rfl

theorem setProperty (hr : r.GuardsIds) {h : Handle} {property : String} {v : PropertyValue}
    (hset : r.setProperty heap h property v = .ok heap') :
    heap.KeepsIds r (fun g => g = h ∧ property = "id") heap' := by
  obtain ⟨o, hturns, rfl⟩ := Registry.setProperty_eq_ok hset
  exact put (fun hmade => hr.keepsKind property _ o hmade hturns) fun hmade hfixed =>
    hr.keepsId property _ o hmade hturns fun hid => hfixed ⟨rfl, hid⟩

/-- Only the path `id` itself may end in `id`, and that is the id of the object it starts at. -/
theorem setPath (hr : r.GuardsIds) {h : Handle} {path : String} {v : PropertyValue}
    (hpath : (Text.pieces '.' path).getLast? = some "id" → path = "id")
    (hset : r.setPath heap h path v = .ok heap') :
    heap.KeepsIds r (fun g => g = h ∧ path = "id") heap' := by
  rcases Registry.setPath_eq_ok hset with rfl | ⟨g, property, hcell, hset⟩
  · exact .refl heap'
  · refine (setProperty hr hset).mono ?_
    rintro _ ⟨rfl, rfl⟩
    obtain rfl := hpath (Registry.getLast?_pieces_of_cellAt? hcell)
    obtain ⟨rfl, -⟩ : h = _ ∧ "id" = "id" := Prod.mk.inj (Option.some.inj hcell)
    exact ⟨rfl, rfl⟩

end Heap.KeepsIds

theorem Registry.exists_definition_of_makes {r : Registry} {ds : List TypeDefinition}
    (hr : r.types = ds.map fun d => (d.name, d.entityType)) {kind : ObjectKind}
    (hmade : r.Makes kind) :
    ∃ d ∈ ds, d.kind = kind ∧ r.type? d.name = some d.entityType := by
  obtain ⟨name, type, htype, rfl⟩ := hmade
  obtain ⟨d, hd, hpair⟩ := List.mem_map.mp (hr ▸ Table.mem_of_get? htype)
  obtain ⟨rfl, rfl⟩ := Prod.mk.inj hpair
  exact ⟨d, hd, rfl, htype⟩

theorem Registry.guardsIds_of_definitions {r : Registry} {ds : List TypeDefinition}
    (hr : r.types = ds.map fun d => (d.name, d.entityType))
    (hid : ∀ d ∈ ds, d.idProperty = some "id") : r.GuardsIds := by
  have hturns {property : String} {o o' : BusinessObject} (hset : r.Turns property o o') :
      o'.kind = o.kind ∧ ∀ other, other ≠ property →
        o'.cells.get? other = o.cells.get? other := by
    obtain ⟨p, rfl, v, rfl⟩ := turns_of_definitions hr hset
    exact ⟨rfl, fun other hother => Table.get?_put_of_ne hother ..⟩
  refine ⟨fun kind hmade id cells => ?_, fun property o o' _ hset => (hturns hset).1,
    fun property o o' hmade hset hproperty => ?_⟩
  · obtain ⟨d, hd, rfl, -⟩ := exists_definition_of_makes hr hmade
    simp [TypeDefinition.kind, TypeDefinition.storedId?, TypeDefinition.storeId, hid d hd,
      PropertyValue.text?]
  · obtain ⟨d, hd, hkind, -⟩ := exists_definition_of_makes hr hmade
    obtain ⟨hsame, hcells⟩ := hturns hset
    rw [BusinessObject.id?, BusinessObject.id?, hsame, ← hkind]
    simp [TypeDefinition.kind, TypeDefinition.storedId?, hid d hd, hcells "id" hproperty.symm]

end Fieldwise
