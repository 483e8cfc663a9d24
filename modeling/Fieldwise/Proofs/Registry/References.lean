import Fieldwise.Proofs.Registry.Ids

/-!
What becomes of references while objects are written. Where each property is on its own, a reference
that has been set is there until the property is set again, whatever else is set and whichever id
the object is given.
-/

namespace Fieldwise

namespace Registry

/-- A property of the type is declared to refer to a single object. -/
def IsReference (r : Registry) (typeName property : String) : Prop :=
  ∃ a target, r.accessor typeName property = .ok a ∧ a.type = .reference target

/-- Setting a property is of no consequence for others; a property that is declared as a reference
refers to what it was set to, and giving an id to an object leaves it. -/
structure KeepsReferences (r : Registry) : Prop where
  keepsKind : ∀ property o o', r.Turns property o o' → o'.kind = o.kind
  keepsOthers : ∀ property o o', r.Turns property o o' → ∀ other, other ≠ property →
    r.valueOf o' other = r.valueOf o other
  takesReference : ∀ property o o' a g, r.IsReference o.typeName property →
    r.accessor o.typeName property = .ok a → a.set (.reference g) o = .ok o' →
    r.valueOf o' property = .ok (.reference g)
  withId : ∀ property o id, r.Makes o.kind → r.IsReference o.typeName property →
    r.valueOf (o.withId id) property = r.valueOf o property

/-- Types that keep their values in cells keep references, unless they keep ids in the cells of
relations. -/
theorem keepsReferences_of_definitions {r : Registry} {ds : List TypeDefinition}
    (hr : r.types = ds.map fun d => (d.name, d.entityType))
    (hids : ∀ d ∈ ds, ∀ p ∈ d.properties, p.type.isRelation → d.idProperty ≠ some p.name) :
    r.KeepsReferences where
  keepsKind property o o' hturns := by
    obtain ⟨p, -, v, rfl⟩ := turns_of_definitions hr hturns
    rfl
  keepsOthers property o o' hturns other hother := by
    obtain ⟨p, rfl, v, rfl⟩ := turns_of_definitions hr hturns
    exact valueOf_set_of_ne hr hother v
  takesReference property o o' a g hreference ha hset := by
    obtain ⟨b, target, hb, htype⟩ := hreference
    obtain rfl := Except.ok.inj (ha.symm.trans hb)
    obtain ⟨d, -, -, p, -, rfl, rfl⟩ := accessor_of_definitions hr ha
    obtain ⟨hmake, rfl⟩ := PropertyDefinition.accessor_set_eq_ok hset
    rw [valueOf_of_accessor (o := p.set (.reference g) o) ha]
    have hget : p.get (p.set (.reference g) o) = .reference g := by
      simp [PropertyDefinition.get_set_self, PropertyDefinition.view?,
        show p.type = .reference target from htype, PropertyValue.reference?]
    simp only [PropertyDefinition.accessor, hget]
    exact if_pos hmake
  withId property o id hmade hreference := by
    obtain ⟨a, target, ha, htype⟩ := hreference
    obtain ⟨d, hd, hkind, hregistered⟩ := exists_definition_of_makes hr hmade
    have hname : o.typeName = d.name := by
      rw [BusinessObject.typeName, ← hkind]
      rfl
    obtain ⟨p, hp, rfl, rfl⟩ : ∃ p ∈ d.properties, p.name = property ∧ p.accessor d.name = a := by
      apply TypeDefinition.accessor?_eq_some
      rw [accessor, hname, hregistered] at ha
      dsimp only at ha
      split at ha
      · cases ha
      · next b hb => rw [hb, Except.ok.inj ha]
    have hcell : p.get (o.withId id) = p.get o := by
      have hid := hids d hd p hp (by rw [show p.type = .reference target from htype]; rfl)
      simp only [PropertyDefinition.get, BusinessObject.withId, ← hkind, TypeDefinition.kind,
        TypeDefinition.storeId]
      split
      · rfl
      · next q hq =>
        have hne : p.name ≠ q := fun heq => hid (heq ▸ hq)
        rw [Table.get?_put_of_ne hne]
    rw [valueOf_of_accessor ha, valueOf_of_accessor (o := o.withId id) ha]
    exact PropertyDefinition.accessor_get_congr rfl hcell

end Registry

end Fieldwise
