import Fieldwise.Proofs.Registry.Lawful

/-!
Which values fit a declared type by their shape, and what setters have to do with it. A registry
deviates from another if its setters do something else with values that do not fit, so what makes
no difference for any registry that deviates hands no such value to a setter.
-/

namespace Fieldwise

/-- Null fits every type. It does not matter which objects are referred to. -/
def PropertyType.fits : PropertyType → PropertyValue → Bool
  | _, .null => true
  | text, .text _ => true
  | integer, .integer _ => true
  | decimal, .decimal _ => true
  | boolean, .boolean _ => true
  | date, .date _ => true
  | dateTime, .dateTime _ => true
  | json, .json _ => true
  | reference _, .reference _ => true
  | collection _, .list items => items.all (·.reference?.isSome)
  | _, _ => false

theorem PropertyType.fits_null (type : PropertyType) : type.fits .null = true := by
  cases type <;> rfl

theorem Coercion.fits_of_value? {s : Settings} {type : PropertyType} {v : Json}
    {u : PropertyValue} (h : value? s v type = some u) : type.fits u = true := by
  cases type with
  | text | integer | decimal | boolean =>
    obtain ⟨-, -, rfl⟩ := Option.map_eq_some_iff.mp h
    rfl
  | date | dateTime =>
    obtain ⟨_, _, h⟩ := Option.bind_eq_some_iff.mp h
    obtain ⟨_, _, h⟩ := Option.bind_eq_some_iff.mp h
    obtain rfl := Option.some.inj h
    rfl
  | json =>
    obtain rfl := Option.some.inj h
    rfl
  | reference target | collection target => cases h

theorem fits_of_coerce {s : Settings} {property : String} {type : PropertyType} {v : Json}
    {u : PropertyValue} (h : coerce s property type v = .ok u) : type.fits u = true := by
  unfold coerce at h
  split at h
  · obtain rfl := Except.ok.inj h
    exact type.fits_null
  · split at h
    · next value hvalue =>
      obtain rfl := Except.ok.inj h
      exact Coercion.fits_of_value? hvalue
    · cases h

/-- Each reference is null or leads to an object of the type that it is declared for. -/
def Heap.RefersAsDeclared (r : Registry) (heap : Heap) : Prop :=
  ∀ h property a target v, r.accessor (heap.get h).typeName property = .ok a →
    a.type = .reference target → a.get (heap.get h) = .ok v →
    v = .null ∨ ∃ g, v = .reference g ∧ (heap.get g).typeName = target

/-- The property does not refer to anything but an object of its type. -/
def PropertyDefinition.refersIn (heap : Heap) (p : PropertyDefinition) (o : BusinessObject) :
    Bool :=
  match p.type, p.get o with
  | .reference _, .null => true
  | .reference target, .reference g => (heap.get g).typeName == target
  | .reference _, _ => false
  | _, _ => true

theorem Heap.refersAsDeclared_of_definitions {r : Registry} {ds : List TypeDefinition}
    (hr : r.types = ds.map fun d => (d.name, d.entityType)) {heap : Heap}
    (hheap : ∀ o ∈ .nothing :: heap, ∀ d ∈ ds, d.name = o.typeName →
      ∀ p ∈ d.properties, p.refersIn heap o = true) : heap.RefersAsDeclared r := by
  intro h property a target v ha htype hv
  obtain ⟨d, hd, hname, p, hp, rfl, rfl⟩ := Registry.accessor_of_definitions hr ha
  obtain ⟨-, rfl⟩ := PropertyDefinition.accessor_get_eq_ok hv
  have hmem : heap.get h ∈ .nothing :: heap := by
    unfold Heap.get
    cases hget : heap[h]? with
    | none => simp
    | some o => simp [List.mem_of_getElem? hget]
  have hrefers := hheap _ hmem d hd hname p hp
  change p.type = .reference target at htype
  simp only [PropertyDefinition.refersIn, htype] at hrefers
  cases hvalue : p.get (heap.get h) with
  | null => exact .inl rfl
  | reference g =>
    rw [hvalue] at hrefers
    exact .inr ⟨g, rfl, by simpa using hrefers⟩
  | _ => simp [hvalue] at hrefers

/-- What is done with a value that does not fit. -/
abbrev Deviation := Accessor → PropertyValue → BusinessObject → Except Error BusinessObject

def Accessor.deviating (other : Deviation) (a : Accessor) : Accessor :=
  { a with set? := a.set?.map fun set v o => if a.type.fits v then set v o else other a v o }

def EntityType.deviating (other : Deviation) (t : EntityType) : EntityType :=
  { t with accessors := t.accessors.map fun entry => (entry.1, entry.2.deviating other) }

namespace Registry

def deviating (other : Deviation) (r : Registry) : Registry :=
  { r with types := r.types.map fun entry => (entry.1, entry.2.deviating other) }

variable {r : Registry} {heap : Heap} {h g : Handle} {other : Deviation}

theorem type?_deviating (name : String) :
    (r.deviating other).type? name = (r.type? name).map (·.deviating other) :=
  Table.get?_map _ name r.types

theorem accessor_deviating (typeName property : String) :
    (r.deviating other).accessor typeName property =
      (r.accessor typeName property).map (·.deviating other) := by
  unfold accessor
  rw [type?_deviating]
  cases r.type? typeName with
  | none => rfl
  | some t =>
    have haccessor : (t.deviating other).accessor? property =
        (t.accessor? property).map (·.deviating other) := Table.get?_map _ property t.accessors
    simp only [Option.map_some, haccessor]
    cases t.accessor? property <;> rfl

theorem valueOf_deviating (o : BusinessObject) (property : String) :
    (r.deviating other).valueOf o property = r.valueOf o property := by
  simp only [valueOf, accessor_deviating]
  cases r.accessor o.typeName property <;> rfl

theorem getProperty_deviating (property : String) :
    (r.deviating other).getProperty heap h property = r.getProperty heap h property :=
  valueOf_deviating (heap.get h) property

theorem follow_deviating (properties : List String) :
    (r.deviating other).follow heap h properties = r.follow heap h properties := by
  induction properties generalizing h with
  | nil => rfl
  | cons property rest ih =>
    cases rest with
    | nil => exact getProperty_deviating property
    | cons next rest => simp only [follow, getProperty_deviating, ih]

theorem accessorAlong_deviating (typeName : String) (properties : List String) :
    (r.deviating other).accessorAlong typeName properties =
      (r.accessorAlong typeName properties).map (·.deviating other) := by
  induction properties generalizing typeName with
  | nil => rfl
  | cons property rest ih =>
    cases rest with
    | nil => exact accessor_deviating typeName property
    | cons next rest =>
      simp only [accessorAlong, accessor_deviating]
      cases r.accessor typeName property with
      | error e => rfl
      | ok a =>
        simp only [Except.map, bind, Except.bind, Accessor.deviating]
        cases a.type with
        | reference target => exact ih target
        | _ => rfl

theorem declaredType_deviating (typeName path : String) :
    (r.deviating other).declaredType typeName path = r.declaredType typeName path := by
  simp only [declaredType, declaredAlong_eq, accessorAlong_deviating]
  cases r.accessorAlong typeName (Text.pieces '.' path) <;> rfl

/-- The object that has the property at the end of a path, and the accessor of that property.
There is none below null. -/
def accessorAt (r : Registry) (heap : Heap) (h : Handle) (path : String) :
    Except Error (Option (Handle × Accessor)) :=
  match Text.splitAtLast? '.' path with
  | none => do pure (some (h, ← r.accessor (heap.get h).typeName path))
  | some (way, property) => do
    match ← r.getPath heap h way with
    | .reference target => pure (some (target, ← r.accessor (heap.get target).typeName property))
    | .null => pure none
    | other =>
      .error (.propertyAccess (heap.get h).typeName path s!"'{way}' is a {other.label} value")

theorem setPath_of_accessorAt {path : String} {v : PropertyValue} {a : Accessor}
    (hat : r.accessorAt heap h path = .ok (some (g, a))) :
    r.setPath heap h path v = (do pure (heap.put g (← a.set v (heap.get g)))) := by
  unfold setPath
  unfold accessorAt at hat
  cases hsplit : Text.splitAtLast? '.' path with
  | none =>
    rw [hsplit] at hat
    obtain ⟨b, hb, hat⟩ := except_bind_eq_ok.mp hat
    cases hat
    exact setProperty_of_accessor hb v
  | some split =>
    obtain ⟨way, property⟩ := split
    rw [hsplit] at hat
    obtain ⟨u, hu, hat⟩ := except_bind_eq_ok.mp hat
    simp only [hu, bind, Except.bind]
    cases u with
    | reference target =>
      obtain ⟨b, hb, hat⟩ := except_bind_eq_ok.mp hat
      cases hat
      exact setProperty_of_accessor hb v
    | null => cases hat
    | _ => cases hat

theorem accessorAt_deviating {path : String} {a : Accessor}
    (hat : r.accessorAt heap h path = .ok (some (g, a))) :
    (r.deviating other).accessorAt heap h path = .ok (some (g, a.deviating other)) := by
  unfold accessorAt at hat ⊢
  cases hsplit : Text.splitAtLast? '.' path with
  | none =>
    rw [hsplit] at hat
    obtain ⟨b, hb, hat⟩ := except_bind_eq_ok.mp hat
    cases hat
    simp only [accessor_deviating, hb]
    rfl
  | some split =>
    obtain ⟨way, property⟩ := split
    rw [hsplit] at hat
    obtain ⟨u, hu, hat⟩ := except_bind_eq_ok.mp hat
    have hway : (r.deviating other).getPath heap h way = .ok u := by
      rw [getPath, follow_deviating]
      exact hu
    simp only [hway, bind, Except.bind]
    cases u with
    | reference target =>
      obtain ⟨b, hb, hat⟩ := except_bind_eq_ok.mp hat
      cases hat
      simp only [accessor_deviating, hb]
      rfl
    | null => cases hat
    | _ => cases hat

theorem setProperty_deviating {property : String} {v : PropertyValue}
    (hfits : ∀ a, r.accessor (heap.get h).typeName property = .ok a → a.isWritable →
      a.type.fits v = true) :
    (r.deviating other).setProperty heap h property v = r.setProperty heap h property v := by
  simp only [setProperty, accessor_deviating]
  cases ha : r.accessor (heap.get h).typeName property with
  | error e => rfl
  | ok a =>
    have hset : (a.deviating other).set v (heap.get h) = a.set v (heap.get h) := by
      cases hwritable : a.set? with
      | none => simp [Accessor.set, Accessor.deviating, hwritable]
      | some set =>
        have hv := hfits a ha (by simp [Accessor.isWritable, hwritable])
        simp [Accessor.set, Accessor.deviating, hwritable, hv]
    simp only [Except.map, bind, Except.bind, hset]

theorem setPath_deviating {path : String} {v : PropertyValue}
    (hfits : ∀ g a, r.accessorAt heap h path = .ok (some (g, a)) → a.isWritable →
      a.type.fits v = true) :
    (r.deviating other).setPath heap h path v = r.setPath heap h path v := by
  unfold setPath
  unfold accessorAt at hfits
  cases hsplit : Text.splitAtLast? '.' path with
  | none =>
    simp only [hsplit] at hfits
    refine setProperty_deviating fun a ha => hfits h a ?_
    simp only [ha, bind, Except.bind, pure, Except.pure]
  | some split =>
    obtain ⟨way, property⟩ := split
    simp only [hsplit] at hfits
    simp only [getPath, follow_deviating]
    cases hway : r.follow heap h (Text.pieces '.' way) with
    | error e => rfl
    | ok u =>
      cases u with
      | reference g =>
        refine setProperty_deviating fun a ha => hfits g a ?_
        simp only [getPath, hway, ha, bind, Except.bind, pure, Except.pure]
      | _ => rfl

theorem setPath_deviating_of_not_fits {path : String} {v : PropertyValue} {a : Accessor}
    (hat : r.accessorAt heap h path = .ok (some (g, a))) (hwritable : a.isWritable)
    (hfits : a.type.fits v = false) :
    (r.deviating other).setPath heap h path v =
      (do pure (heap.put g (← other a v (heap.get g)))) := by
  obtain ⟨set, hset⟩ := Option.isSome_iff_exists.mp hwritable
  have hother : (a.deviating other).set v (heap.get g) = other a v (heap.get g) := by
    simp [Accessor.set, Accessor.deviating, hset, hfits]
  rw [setPath_of_accessorAt (accessorAt_deviating hat), hother]

/-- Where references are as declared, a declared path to a reference leads to an object of its
type, or to null. -/
theorem follow_refers (hrefers : heap.RefersAsDeclared r) {properties : List String} {a : Accessor}
    {target : String} {v : PropertyValue}
    (ha : r.accessorAlong (heap.get h).typeName properties = .ok a)
    (htype : a.type = .reference target) (hv : r.follow heap h properties = .ok v) :
    v = .null ∨ ∃ g, v = .reference g ∧ (heap.get g).typeName = target := by
  have hstep {h : Handle} {property : String} {b : Accessor} {target : String}
      {u : PropertyValue} (hb : r.accessor (heap.get h).typeName property = .ok b)
      (htype : b.type = .reference target) (hu : r.getProperty heap h property = .ok u) :
      u = .null ∨ ∃ g, u = .reference g ∧ (heap.get g).typeName = target := by
    simp only [getProperty, hb] at hu
    exact hrefers h property b target u hb htype hu
  induction properties generalizing h with
  | nil => cases ha
  | cons property rest ih =>
    by_cases hrest : rest = []
    · subst hrest
      exact hstep ha htype hv
    · obtain ⟨b, next, hb, hnext, ha⟩ := accessorAlong_cons_eq_ok hrest ha
      rcases follow_cons_eq_ok hrest hv with ⟨g, hg, hv⟩ | ⟨-, rfl⟩
      · obtain ⟨g', hg', hname⟩ := (hstep hb hnext hg).resolve_left (by simp)
        obtain rfl := PropertyValue.reference.inj hg'
        exact ih (hname ▸ ha) hv
      · exact .inl rfl

theorem type_of_accessorAt (hrefers : heap.RefersAsDeclared r) {path : String}
    {type : PropertyType} (hdeclared : r.declaredType (heap.get h).typeName path = .ok type)
    {a : Accessor} (hat : r.accessorAt heap h path = .ok (some (g, a))) : a.type = type := by
  have hpieces := Text.pieces_eq_of_splitAtLast? '.' path
  rw [declaredType, declaredAlong_eq] at hdeclared
  unfold accessorAt at hat
  cases hsplit : Text.splitAtLast? '.' path with
  | none =>
    simp only [hsplit] at hpieces hat
    obtain ⟨b, hb, hat⟩ := except_bind_eq_ok.mp hat
    cases hat
    simpa [hpieces, accessorAlong, hb, Except.map] using hdeclared
  | some split =>
    obtain ⟨way, property⟩ := split
    simp only [hsplit] at hpieces hat
    obtain ⟨u, hu, hat⟩ := except_bind_eq_ok.mp hat
    cases hlast : r.accessorAlong (heap.get h).typeName (Text.pieces '.' path) with
    | error e => simp [hlast, Except.map] at hdeclared
    | ok b =>
      rw [hlast] at hdeclared
      rw [hpieces] at hlast
      obtain ⟨c, target, hc, htype, hb⟩ :=
        accessorAlong_concat_eq_ok (Text.pieces_ne_nil '.' way) hlast
      rcases follow_refers hrefers hc htype hu with rfl | ⟨g', rfl, hname⟩
      · cases hat
      · obtain ⟨b', hb', hat⟩ := except_bind_eq_ok.mp hat
        rw [hname, hb] at hb'
        cases hat
        cases hb'
        exact Except.ok.inj hdeclared

end Registry

end Fieldwise
