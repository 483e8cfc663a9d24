import Fieldwise.EntityType.Definition
import Fieldwise.Proofs.Registry.Paths

/-!
Accessors by which a value that was read can be set again without a difference. With them each
path can be written with what it leads to; objects that are met on several paths, or changed on the
way, stay alike. Types that keep their values in cells have such accessors for all objects whose
cells hold what a setter may leave there.
-/

namespace Fieldwise

/-- An object that is of the same kind and cannot be told from another by its properties. -/
structure BusinessObject.Alike (r : Registry) (o o' : BusinessObject) : Prop where
  kind : o'.kind = o.kind
  values : ∀ property, r.valueOf o' property = r.valueOf o property

namespace BusinessObject.Alike

variable {r : Registry} {o o' o'' : BusinessObject}

theorem refl (o : BusinessObject) : o.Alike r o := ⟨rfl, fun _ => rfl⟩

theorem trans (h : o.Alike r o') (h' : o'.Alike r o'') : o.Alike r o'' :=
  ⟨h'.kind.trans h.kind, fun property => (h'.values property).trans (h.values property)⟩

theorem typeName (h : o.Alike r o') : o'.typeName = o.typeName := by
  rw [BusinessObject.typeName, h.kind]
  rfl

end BusinessObject.Alike

/-- A heap with the same places, none of which can be told from before by its properties. -/
structure Heap.Alike (r : Registry) (heap heap' : Heap) : Prop where
  length : heap'.length = heap.length
  objects : ∀ h, (heap.get h).Alike r (heap'.get h)

namespace Heap.Alike

variable {r : Registry} {heap heap' : Heap}

theorem refl (heap : Heap) : heap.Alike r heap := ⟨rfl, fun _ => .refl _⟩

theorem put (h : heap.Alike r heap') {g : Handle} (hg : g < heap.length) {o : BusinessObject}
    (ho : (heap'.get g).Alike r o) : heap.Alike r (heap'.put g o) := by
  refine ⟨by rw [length_put, h.length], fun g' => ?_⟩
  by_cases hne : g = g'
  · subst hne
    rw [get_put_self (by rw [h.length]; exact hg)]
    exact (h.objects g).trans ho
  · rw [get_put_of_ne hne]
    exact h.objects g'

theorem getProperty (h : heap.Alike r heap') (g : Handle) (property : String) :
    r.getProperty heap' g property = r.getProperty heap g property :=
  (h.objects g).values property

theorem follow (h : heap.Alike r heap') (g : Handle) (properties : List String) :
    r.follow heap' g properties = r.follow heap g properties := by
  induction properties generalizing g with
  | nil => rfl
  | cons property rest ih =>
    cases rest with
    | nil => exact h.getProperty g property
    | cons next rest =>
      simp only [Registry.follow, h.getProperty, (h.objects g).typeName, ih]

end Heap.Alike

/-- A value that was read from a property can be set, and then nothing can be told from before: not
of the objects of the heap, and not of any that are like them. -/
def Registry.Lawful (r : Registry) (heap : Heap) : Prop :=
  ∀ h < heap.length, ∀ o, (heap.get h).Alike r o → ∀ property a v,
    r.accessor o.typeName property = .ok a → a.isWritable → a.get o = .ok v →
    ∃ o', a.set v o = .ok o' ∧ o.Alike r o'

namespace Registry

variable {r : Registry} {heap heap' : Heap} {h : Handle}

theorem setProperty_read (hlaw : r.Lawful heap) (halike : heap.Alike r heap')
    (hh : h < heap.length) {property : String} {a : Accessor}
    (ha : r.accessor (heap.get h).typeName property = .ok a) (hwritable : a.isWritable)
    {v : PropertyValue} (hv : r.getProperty heap h property = .ok v) :
    ∃ heap'', r.setProperty heap' h property v = .ok heap'' ∧ heap.Alike r heap'' := by
  have ha' : r.accessor (heap'.get h).typeName property = .ok a := by
    rw [(halike.objects h).typeName, ha]
  have hget : a.get (heap'.get h) = .ok v := by
    rw [← halike.getProperty, Registry.getProperty, ha'] at hv
    exact hv
  obtain ⟨o, hset, ho⟩ := hlaw h hh _ (halike.objects h) property a v ha' hwritable hget
  refine ⟨heap'.put h o, ?_, halike.put hh ho⟩
  simp only [setProperty, ha', bind, Except.bind, hset]
  rfl

/-- The value at the end of a declared path can be set there, also where the path leads to null. -/
theorem setPath_read (hheap : heap.WellTyped r) (hlaw : r.Lawful heap)
    (halike : heap.Alike r heap') (hh : h < heap.length) {path : String} {a : Accessor}
    (ha : r.accessorAlong (heap.get h).typeName (Text.pieces '.' path) = .ok a)
    (hwritable : a.isWritable) {v : PropertyValue} (hv : r.getPath heap h path = .ok v) :
    ∃ heap'', r.setPath heap' h path v = .ok heap'' ∧ heap.Alike r heap'' := by
  have hpieces := Text.pieces_eq_of_splitAtLast? '.' path
  unfold setPath
  rw [getPath] at hv
  cases hsplit : Text.splitAtLast? '.' path with
  | none =>
    simp only [hsplit] at hpieces
    rw [hpieces] at ha hv
    exact setProperty_read hlaw halike hh ha hwritable hv
  | some split =>
    obtain ⟨way, property⟩ := split
    simp only [hsplit] at hpieces
    rw [hpieces] at ha hv
    have hway := Text.pieces_ne_nil '.' way
    obtain ⟨b, target, hb, htype, ha⟩ := accessorAlong_concat_eq_ok hway ha
    obtain ⟨u, hu, hholds⟩ := follow_of_accessorAlong hheap hh hb
    obtain ⟨hreference, hnull⟩ := follow_concat hway property hu
    have hget : r.getPath heap' h way = .ok u := (halike.follow h _).trans hu
    rw [htype] at hholds
    simp only [hget, bind, Except.bind]
    rcases hholds.null_or_refers with rfl | ⟨g, rfl, hg, hname⟩
    · obtain rfl : PropertyValue.null = v := by simpa [hnull rfl] using hv
      exact ⟨heap', rfl, halike⟩
    · rw [hreference g rfl] at hv
      exact setProperty_read hlaw halike hg (hname ▸ ha) hwritable hv

end Registry

/-- The cell of a property holds what setting it to its own value leaves there. -/
def PropertyDefinition.Settled (p : PropertyDefinition) (o : BusinessObject) : Prop :=
  (p.view? (p.get o)).getD p.absent = p.get o

namespace PropertyDefinition

variable {p q : PropertyDefinition} {o : BusinessObject}

theorem get_set_self (v : PropertyValue) :
    p.get (p.set v o) = (p.view? v).getD p.absent := by
  simp [get, set]

theorem get_set_of_ne (h : q.name ≠ p.name) (v : PropertyValue) :
    q.get (p.set v o) = q.get o := by
  simp [get, set, Table.get?_put_of_ne h]

theorem accessor_get_eq_ok {make : String} {v : PropertyValue}
    (h : (p.accessor make).get o = .ok v) : o.kind.make = make ∧ p.get o = v := by
  simp only [accessor] at h
  split at h
  · next hmake => exact ⟨hmake, Except.ok.inj h⟩
  · cases h

theorem accessor_get_congr {make : String} {o' : BusinessObject} (hkind : o'.kind = o.kind)
    (hget : p.get o' = p.get o) : (p.accessor make).get o' = (p.accessor make).get o := by
  simp only [accessor, hkind, hget]

theorem accessor_set_eq_ok {make : String} {v : PropertyValue} {o' : BusinessObject}
    (h : (p.accessor make).set v o = .ok o') : o.kind.make = make ∧ o' = p.set v o := by
  simp only [Accessor.set, accessor] at h
  split at h
  · next set hset =>
    obtain ⟨-, rfl⟩ : p.readOnly = false ∧ _ := by simpa using hset
    dsimp only at h
    split at h
    · next hmake => exact ⟨hmake, (Except.ok.inj h).symm⟩
    · cases h
  · cases h

end PropertyDefinition

theorem TypeDefinition.accessor?_eq_some {d : TypeDefinition} {property : String} {a : Accessor}
    (ha : d.entityType.accessor? property = some a) :
    ∃ p ∈ d.properties, p.name = property ∧ p.accessor d.name = a := by
  obtain ⟨p, hp, hpair⟩ := List.mem_map.mp (Table.mem_of_mem_ofList (Table.mem_of_get? ha))
  obtain ⟨rfl, rfl⟩ := Prod.mk.inj hpair
  exact ⟨p, hp, rfl, rfl⟩

namespace Registry

variable {r : Registry} {heap : Heap}

section

variable {ds : List TypeDefinition} (hr : r.types = ds.map fun d => (d.name, d.entityType))

include hr

theorem accessor_of_definitions {typeName property : String} {a : Accessor}
    (ha : r.accessor typeName property = .ok a) :
    ∃ d ∈ ds, d.name = typeName ∧ ∃ p ∈ d.properties, p.name = property ∧
      p.accessor d.name = a := by
  unfold accessor at ha
  split at ha
  · cases ha
  next type htype =>
    obtain ⟨d, hd, htype⟩ := List.mem_map.mp (hr ▸ Table.mem_of_get? htype)
    obtain ⟨rfl, rfl⟩ := Prod.mk.inj htype
    split at ha
    · cases ha
    next b hb =>
      obtain rfl := Except.ok.inj ha
      exact ⟨d, hd, rfl, d.accessor?_eq_some hb⟩

theorem valueOf_set_of_ne {p : PropertyDefinition} {o : BusinessObject} {property : String}
    (hne : property ≠ p.name) (v : PropertyValue) :
    r.valueOf (p.set v o) property = r.valueOf o property := by
  cases hb : r.accessor o.typeName property with
  | error err =>
    have hb' : r.accessor (p.set v o).typeName property = .error err := hb
    rw [valueOf, valueOf, hb, hb']
    rfl
  | ok b =>
    obtain ⟨d, -, -, q, -, rfl, rfl⟩ := accessor_of_definitions hr hb
    rw [valueOf_of_accessor hb, valueOf_of_accessor (o := p.set v o) hb]
    exact PropertyDefinition.accessor_get_congr rfl (PropertyDefinition.get_set_of_ne hne v)

theorem wellTyped_of_definitions
    (hheap : ∀ o ∈ heap, ∀ d ∈ ds, d.name = o.typeName → o.kind.make = d.name ∧
      ∀ p ∈ d.properties, p.type.Holds heap (p.get o)) : heap.WellTyped r := by
  intro h hh property a ha
  have hmem : heap.get h ∈ heap := by simp [Heap.get, hh]
  obtain ⟨d, hd, hname, p, hp, rfl, rfl⟩ := accessor_of_definitions hr ha
  obtain ⟨hmake, hholds⟩ := hheap _ hmem d hd hname
  exact ⟨p.get (heap.get h), by simp [PropertyDefinition.accessor, hmake], hholds p hp⟩

theorem lawful_of_definitions
    (hsettled : ∀ o ∈ heap, ∀ d ∈ ds, d.name = o.typeName → ∀ p ∈ d.properties, p.Settled o) :
    r.Lawful heap := by
  intro h hh o ho property a v ha hwritable hget
  have hmem : heap.get h ∈ heap := by simp [Heap.get, hh]
  obtain ⟨d, hd, hname, p, hp, rfl, rfl⟩ := accessor_of_definitions hr ha
  obtain ⟨hmake, rfl⟩ := PropertyDefinition.accessor_get_eq_ok hget
  -- the object of the heap has the same value, so its cell tells what setting does here
  have hvalue : (p.accessor d.name).get (heap.get h) = .ok (p.get o) := by
    have hsame := (ho.values p.name).symm
    rw [valueOf, valueOf, ← ho.typeName, ha] at hsame
    exact hsame.trans hget
  have hkept : (p.view? (p.get o)).getD p.absent = p.get o := by
    have hcell := hsettled _ hmem d hd (hname.trans ho.typeName) p hp
    rwa [PropertyDefinition.Settled, (PropertyDefinition.accessor_get_eq_ok hvalue).2] at hcell
  have hset : (p.accessor d.name).set (p.get o) o = .ok (p.set (p.get o) o) := by
    have hwritable' : p.readOnly = false := by
      cases hreadOnly : p.readOnly
      · rfl
      · simp [Accessor.isWritable, PropertyDefinition.accessor, hreadOnly] at hwritable
    simp [Accessor.set, PropertyDefinition.accessor, hwritable', hmake]
  refine ⟨_, hset, rfl, fun property => ?_⟩
  by_cases hproperty : property = p.name
  · subst hproperty
    rw [valueOf_of_accessor ha, valueOf_of_accessor (o := p.set (p.get o) o) ha]
    exact PropertyDefinition.accessor_get_congr rfl
      ((PropertyDefinition.get_set_self _).trans hkept)
  · exact valueOf_set_of_ne hr hproperty _

end

end Registry

end Fieldwise
