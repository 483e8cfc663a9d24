import Fieldwise.Proofs.Registry.Lawful

/-!
What writes set. A cell is a property of an object. Writing a path sets the one cell that the
objects on the way lead to at that time, or none. Where setters keep to their properties, what is
read from all other cells is as before.
-/

namespace Fieldwise

theorem Heap.get_put (heap : Heap) (h g : Handle) (o : BusinessObject) :
    (heap.put h o).get g = heap.get g ∨ g = h ∧ (heap.put h o).get g = o := by
  by_cases hgh : h = g
  · subst hgh
    by_cases hh : h < heap.length
    · exact .inr ⟨rfl, get_put_self hh o⟩
    · exact .inl (by simp [get, put, hh])
  · exact .inl (get_put_of_ne hgh o)

namespace Registry

variable {r seen : Registry} {heap heap' : Heap} {h : Handle} {path property : String}
  {v : PropertyValue} {o o' : BusinessObject}

/-- Setting the property turns the one object into the other. -/
def Turns (r : Registry) (property : String) (o o' : BusinessObject) : Prop :=
  ∃ a v, r.accessor o.typeName property = .ok a ∧ a.set v o = .ok o'

theorem setProperty_eq_ok (hset : r.setProperty heap h property v = .ok heap') :
    ∃ o, r.Turns property (heap.get h) o ∧ heap' = heap.put h o := by
  obtain ⟨o, ho, hput⟩ := setProperty_eq_ok_iff.mp hset
  obtain ⟨a, ha, ho⟩ := withValue_eq_ok_iff.mp ho
  exact ⟨o, ⟨a, v, ha, ho⟩, hput⟩

theorem turns_of_definitions {ds : List TypeDefinition}
    (hr : r.types = ds.map fun d => (d.name, d.entityType)) (hturns : r.Turns property o o') :
    ∃ p : PropertyDefinition, p.name = property ∧ ∃ v, o' = p.set v o := by
  obtain ⟨a, v, ha, hset⟩ := hturns
  obtain ⟨d, -, -, p, -, hname, rfl⟩ := accessor_of_definitions hr ha
  exact ⟨p, hname, v, (PropertyDefinition.accessor_set_eq_ok hset).2⟩

/-- The object and its property that a path leads to. There is none below null. -/
def cellAt? (r : Registry) (heap : Heap) (h : Handle) (path : String) : Option (Handle × String) :=
  match Text.splitAtLast? '.' path with
  | none => some (h, path)
  | some (way, property) =>
    match r.getPath heap h way with
    | .ok (.reference g) => some (g, property)
    | _ => none

theorem setPath_eq_ok (hset : r.setPath heap h path v = .ok heap') :
    heap' = heap ∨ ∃ g property, r.cellAt? heap h path = some (g, property) ∧
      r.setProperty heap g property v = .ok heap' := by
  unfold setPath at hset
  unfold cellAt?
  cases hsplit : Text.splitAtLast? '.' path with
  | none =>
    simp only [hsplit] at hset
    exact .inr ⟨h, path, rfl, hset⟩
  | some split =>
    obtain ⟨way, property⟩ := split
    simp only [hsplit] at hset
    obtain ⟨found, hway, hset⟩ := except_bind_eq_ok.mp hset
    simp only [hway]
    cases found with
    | reference target => exact .inr ⟨target, property, rfl, hset⟩
    | null =>
      dsimp only at hset
      split at hset
      · exact .inl (Except.ok.inj hset).symm
      · cases hset
    | _ => cases hset

theorem getLast?_pieces_of_cellAt? {g : Handle}
    (hcell : r.cellAt? heap h path = some (g, property)) :
    (Text.pieces '.' path).getLast? = some property := by
  rw [Text.pieces_eq_of_splitAtLast?]
  unfold cellAt? at hcell
  cases hsplit : Text.splitAtLast? '.' path with
  | none =>
    simp only [hsplit] at hcell
    cases hcell
    rfl
  | some split =>
    obtain ⟨way, last⟩ := split
    simp only [hsplit] at hcell
    split at hcell
    · cases hcell
      simp
    · cases hcell

/-- What one registry sets is of no consequence for what the other sees elsewhere: setting a
property leaves the object of its type, and with the values of its other properties. -/
structure SetsApart (r seen : Registry) : Prop where
  typeName : ∀ property o o', r.Turns property o o' → o'.typeName = o.typeName
  others : ∀ property o o', r.Turns property o o' → ∀ other, other ≠ property →
    seen.valueOf o' other = seen.valueOf o other

theorem setsApart_of_definitions {ds seenDs : List TypeDefinition}
    (hr : r.types = ds.map fun d => (d.name, d.entityType))
    (hseen : seen.types = seenDs.map fun d => (d.name, d.entityType)) : r.SetsApart seen where
  typeName property o o' hturns := by
    obtain ⟨p, -, v, rfl⟩ := turns_of_definitions hr hturns
    rfl
  others property o o' hturns other hother := by
    obtain ⟨p, rfl, v, rfl⟩ := turns_of_definitions hr hturns
    exact valueOf_set_of_ne hseen hother v

end Registry

/-- Values of the registry that differ are those of touched cells, and no object is of another
type. -/
structure Heap.DiffersAt (r : Registry) (touched : Handle → String → Prop)
    (heap heap' : Heap) : Prop where
  typeName : ∀ g, (heap'.get g).typeName = (heap.get g).typeName
  touched : ∀ g property, r.getProperty heap' g property ≠ r.getProperty heap g property →
    touched g property

namespace Heap.DiffersAt

variable {r seen : Registry} {touched touched' : Handle → String → Prop} {heap heap' heap'' : Heap}
  {h : Handle} {v : PropertyValue}

theorem refl (heap : Heap) : heap.DiffersAt r touched heap :=
  ⟨fun _ => rfl, fun _ _ hne => absurd rfl hne⟩

theorem of_eq (h : heap' = heap) : heap.DiffersAt r touched heap' := by
  rw [h]
  exact refl heap

theorem trans (h : heap.DiffersAt r touched heap') (h' : heap'.DiffersAt r touched heap'') :
    heap.DiffersAt r touched heap'' := by
  refine ⟨fun g => (h'.typeName g).trans (h.typeName g), fun g property hne => ?_⟩
  by_cases hfirst : r.getProperty heap' g property = r.getProperty heap g property
  · exact h'.touched g property (hfirst ▸ hne)
  · exact h.touched g property hfirst

theorem mono (h : heap.DiffersAt r touched heap')
    (htouched : ∀ g property, touched g property → touched' g property) :
    heap.DiffersAt r touched' heap' :=
  ⟨h.typeName, fun g property hne => htouched g property (h.touched g property hne)⟩

theorem setProperty (hr : r.SetsApart seen) {property : String}
    (hset : r.setProperty heap h property v = .ok heap') :
    heap.DiffersAt seen (fun g other => g = h ∧ other = property) heap' := by
  obtain ⟨o, hturns, rfl⟩ := Registry.setProperty_eq_ok hset
  constructor
  · intro g
    rcases heap.get_put h g o with hget | ⟨rfl, hget⟩
    · rw [hget]
    · rw [hget]
      exact hr.typeName property _ o hturns
  · intro g other hne
    rcases heap.get_put h g o with hget | ⟨rfl, hget⟩
    · exact absurd (congrArg (seen.valueOf · other) hget) hne
    · refine ⟨rfl, by_contra fun hother => hne ?_⟩
      exact (congrArg (seen.valueOf · other) hget).trans
        (hr.others property _ o hturns other hother)

theorem setPath (hr : r.SetsApart seen) {path : String}
    (hset : r.setPath heap h path v = .ok heap') :
    heap.DiffersAt seen (fun g property => r.cellAt? heap h path = some (g, property)) heap' := by
  rcases Registry.setPath_eq_ok hset with rfl | ⟨g, property, hcell, hset⟩
  · exact refl heap'
  · refine (setProperty hr hset).mono ?_
    rintro _ _ ⟨rfl, rfl⟩
    exact hcell

end Heap.DiffersAt

end Fieldwise
