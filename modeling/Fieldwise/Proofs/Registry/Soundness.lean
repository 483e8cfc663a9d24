import Fieldwise.Proofs.Registry.Lawful
import Fieldwise.Sample.Engine

/-!
What the declared type of a path promises, whatever objects the path meets: reading gives a value of
the type, or null; writing comes to the accessor that the type was declared by, and can only fail
there, or where the path ends at null before it.
-/

namespace Fieldwise

namespace Registry

/-- The references of the properties on the way lead from one object to another. -/
inductive LeadsTo (r : Registry) (heap : Heap) : Handle → List String → Handle → Prop
  | here {h : Handle} : LeadsTo r heap h [] h
  | on {h next g : Handle} {property : String} {rest : List String}
      (hnext : r.getProperty heap h property = .ok (.reference next))
      (hrest : LeadsTo r heap next rest g) : LeadsTo r heap h (property :: rest) g

/-- One of the properties on the way is null. -/
inductive EndsAtNull (r : Registry) (heap : Heap) : Handle → List String → Prop
  | here {h : Handle} {property : String} {rest : List String}
      (hnull : r.getProperty heap h property = .ok .null) : EndsAtNull r heap h (property :: rest)
  | on {h next : Handle} {property : String} {rest : List String}
      (hnext : r.getProperty heap h property = .ok (.reference next))
      (hrest : EndsAtNull r heap next rest) : EndsAtNull r heap h (property :: rest)

/-- All properties of the path but the last lead to an object, which has that one. -/
def Reaches (r : Registry) (heap : Heap) (h : Handle) (path : String) (g : Handle)
    (a : Accessor) : Prop :=
  ∃ way property, Text.pieces '.' path = way ++ [property] ∧ r.LeadsTo heap h way g ∧
    r.accessor (heap.get g).typeName property = .ok a

/-- How writing a value at the end of a path may end. -/
inductive Writing (r : Registry) (heap : Heap) (h : Handle) (path : String) (v : PropertyValue) :
    Except Error Heap → Prop
  | done {g : Handle} {a : Accessor} {o : BusinessObject} (hreaches : r.Reaches heap h path g a)
      (hset : a.set v (heap.get g) = .ok o) : Writing r heap h path v (.ok (heap.put g o))
  | readOnly {g : Handle} {a : Accessor} (hreaches : r.Reaches heap h path g a)
      (hset : a.set? = none) :
      Writing r heap h path v
        (.error (.propertyAccess (heap.get g).typeName a.name "property is read-only"))
  | refused {g : Handle} {a : Accessor}
      {set : PropertyValue → BusinessObject → Except Error BusinessObject} {error : Error}
      (hreaches : r.Reaches heap h path g a)
      (hset : a.set? = some set) (hrefused : set v (heap.get g) = .error error) :
      Writing r heap h path v (.error error)
  | nothingToClear {way property : String}
      (hpath : Text.splitAtLast? '.' path = some (way, property))
      (hnull : r.EndsAtNull heap h (Text.pieces '.' way)) (hv : v.isNull) :
      Writing r heap h path v (.ok heap)
  | belowNull {way property : String}
      (hpath : Text.splitAtLast? '.' path = some (way, property))
      (hnull : r.EndsAtNull heap h (Text.pieces '.' way)) (hv : ¬ v.isNull) :
      Writing r heap h path v
        (.error (.propertyAccess (heap.get h).typeName path s!"'{way}' is null"))

variable {r : Registry} {heap : Heap} {h g : Handle} {path property : String} {way : List String}
  {a : Accessor}

theorem leadsTo_of_follow (hway : way ≠ []) (hg : r.follow heap h way = .ok (.reference g)) :
    r.LeadsTo heap h way g := by
  induction way generalizing h with
  | nil => exact absurd rfl hway
  | cons property rest ih =>
    by_cases hrest : rest = []
    · subst hrest
      exact .on hg .here
    · rcases follow_cons_eq_ok hrest hg with ⟨next, hnext, hg⟩ | ⟨-, hnull⟩
      · exact .on hnext (ih hrest hg)
      · cases hnull

theorem endsAtNull_of_follow (hway : way ≠ []) (hnull : r.follow heap h way = .ok .null) :
    r.EndsAtNull heap h way := by
  induction way generalizing h with
  | nil => exact absurd rfl hway
  | cons property rest ih =>
    by_cases hrest : rest = []
    · subst hrest
      exact .here hnull
    · rcases follow_cons_eq_ok hrest hnull with ⟨next, hnext, hnull⟩ | ⟨hnull, -⟩
      · exact .on hnext (ih hrest hnull)
      · exact .here hnull

theorem typeName_of_reference (hheap : heap.WellTyped r) (hh : h < heap.length)
    (ha : r.accessor (heap.get h).typeName property = .ok a) {target : String}
    (htype : a.type = .reference target) (hg : r.getProperty heap h property = .ok (.reference g)) :
    g < heap.length ∧ (heap.get g).typeName = target := by
  obtain ⟨v, hv, hholds⟩ := getProperty_of_accessor hheap hh ha
  obtain rfl := Except.ok.inj (hv.symm.trans hg)
  rw [htype] at hholds
  obtain ⟨g', hg', hlt, hname⟩ := hholds.null_or_refers.resolve_left nofun
  cases hg'
  exact ⟨hlt, hname⟩

theorem LeadsTo.accessor_of_accessorAlong (hway : r.LeadsTo heap h way g)
    (hheap : heap.WellTyped r) (hh : h < heap.length)
    (ha : r.accessorAlong (heap.get h).typeName (way ++ [property]) = .ok a) :
    g < heap.length ∧ r.accessor (heap.get g).typeName property = .ok a := by
  induction hway with
  | here => exact ⟨hh, ha⟩
  | on hnext _ ih =>
    obtain ⟨b, target, hb, htype, ha⟩ := accessorAlong_cons_eq_ok (by simp) ha
    obtain ⟨hlt, hname⟩ := typeName_of_reference hheap hh hb htype hnext
    exact ih hlt (hname ▸ ha)

theorem LeadsTo.follow_concat (hway : r.LeadsTo heap h way g) (property : String) :
    r.follow heap h (way ++ [property]) = r.getProperty heap g property := by
  induction hway with
  | here => rfl
  | on hnext _ ih => rw [List.cons_append, (follow_cons_of_eq (by simp) hnext).1 _ rfl, ih]

theorem Reaches.getPath_eq (hreaches : r.Reaches heap h path g a) :
    r.getPath heap h path = a.get (heap.get g) := by
  obtain ⟨way, property, hpath, hway, ha⟩ := hreaches
  rw [getPath, hpath, hway.follow_concat, getProperty, ha]
  rfl

theorem Reaches.accessorAlong_eq (hreaches : r.Reaches heap h path g a)
    (hheap : heap.WellTyped r) (hh : h < heap.length) {b : Accessor}
    (hb : r.accessorAlong (heap.get h).typeName (Text.pieces '.' path) = .ok b) :
    g < heap.length ∧ a = b := by
  obtain ⟨way, property, hpath, hway, ha⟩ := hreaches
  rw [hpath] at hb
  obtain ⟨hlt, hb⟩ := hway.accessor_of_accessorAlong hheap hh hb
  exact ⟨hlt, Except.ok.inj (ha.symm.trans hb)⟩

theorem Reaches.writing (hreaches : r.Reaches heap h path g a) (v : PropertyValue) :
    r.Writing heap h path v (do pure (heap.put g (← a.set v (heap.get g)))) := by
  cases hset : a.set v (heap.get g) with
  | ok o => exact .done hreaches hset
  | error error =>
    cases hsetter : a.set? with
    | none =>
      rw [Accessor.set, hsetter] at hset
      cases hset
      exact .readOnly hreaches hsetter
    | some set =>
      rw [Accessor.set, hsetter] at hset
      exact .refused hreaches hsetter hset

theorem writing_setPath (hheap : heap.WellTyped r) (hh : h < heap.length)
    (ha : r.accessorAlong (heap.get h).typeName (Text.pieces '.' path) = .ok a)
    (v : PropertyValue) : r.Writing heap h path v (r.setPath heap h path v) := by
  have hpieces := Text.pieces_eq_of_splitAtLast? '.' path
  unfold setPath
  cases hsplit : Text.splitAtLast? '.' path with
  | none =>
    simp only [hsplit] at hpieces
    rw [hpieces] at ha
    have hreaches : r.Reaches heap h path h a := ⟨[], path, hpieces, .here, ha⟩
    simp only [setProperty_of_accessor ha]
    exact hreaches.writing v
  | some split =>
    obtain ⟨way, property⟩ := split
    simp only [hsplit] at hpieces
    rw [hpieces] at ha
    have hway := Text.pieces_ne_nil '.' way
    obtain ⟨b, target, hb, htype, -⟩ := accessorAlong_concat_eq_ok hway ha
    obtain ⟨u, hu, hholds⟩ := follow_of_accessorAlong hheap hh hb
    have hget : r.getPath heap h way = .ok u := hu
    rw [htype] at hholds
    simp only [hget, bind, Except.bind]
    rcases hholds.null_or_refers with rfl | ⟨g, rfl, -, -⟩
    · have hnull := endsAtNull_of_follow hway hu
      by_cases hv : v.isNull
      · simp only [hv, if_true]
        exact .nothingToClear hsplit hnull hv
      · simp only [hv]
        exact .belowNull hsplit hnull hv
    · have hleads := leadsTo_of_follow hway hu
      obtain ⟨-, ha⟩ := hleads.accessor_of_accessorAlong hheap hh ha
      have hreaches : r.Reaches heap h path g a := ⟨_, property, hpieces, hleads, ha⟩
      simp only [setProperty_of_accessor ha]
      exact hreaches.writing v

/-- A path that has a declared type leads to a value of the type, or to null. The property that it
reaches is the one that declares the type; it is the one that is read, and the only one that may be
written. -/
theorem path_sound {type : PropertyType} (hheap : heap.WellTyped r) (hh : h < heap.length)
    (hdeclared : r.declaredType (heap.get h).typeName path = .ok type) :
    (∃ v, r.getPath heap h path = .ok v ∧ type.Holds heap v) ∧
    (∀ v, r.Writing heap h path v (r.setPath heap h path v)) ∧
    ∀ g a, r.Reaches heap h path g a → g < heap.length ∧ a.type = type ∧
      r.accessorAlong (heap.get h).typeName (Text.pieces '.' path) = .ok a ∧
      r.getPath heap h path = a.get (heap.get g) := by
  rw [declaredType, declaredAlong_eq] at hdeclared
  cases ha : r.accessorAlong (heap.get h).typeName (Text.pieces '.' path) with
  | error error => simp [ha, Except.map] at hdeclared
  | ok a =>
    obtain rfl : a.type = type := by simpa [ha, Except.map] using hdeclared
    refine ⟨follow_of_accessorAlong hheap hh ha, writing_setPath hheap hh ha, fun g b hb => ?_⟩
    obtain ⟨hg, rfl⟩ := hb.accessorAlong_eq hheap hh ha
    exact ⟨hg, rfl, rfl, hb.getPath_eq⟩

end Registry

namespace Sample

theorem wellTyped_ring : ring.heap.WellTyped registry := by
  have hr : registry.types = types.map fun d => (d.name, d.entityType) := rfl
  refine Registry.wellTyped_of_definitions hr fun o ho d hd hname => ?_
  simp only [ring, List.mem_cons, List.not_mem_nil, or_false] at ho
  have hnode : o.kind = node.kind := by rcases ho with rfl | rfl | rfl <;> rfl
  obtain rfl : d = node := by
    rw [BusinessObject.typeName, hnode] at hname
    simp only [types, List.mem_cons, List.not_mem_nil, or_false] at hd
    rcases hd with rfl | rfl | rfl | rfl
    all_goals first
      | rfl
      | exact absurd hname (by decide)
  refine ⟨by rw [hnode]; rfl, fun p hp => ?_⟩
  simp only [node, List.mem_cons, List.not_mem_nil, or_false] at hp
  rcases ho with rfl | rfl | rfl <;> rcases hp with rfl | rfl | rfl
  all_goals first
    | trivial
    | exact ⟨_, rfl, by decide, rfl⟩
    | exact List.forall_mem_nil _
    | exact List.forall_mem_cons.mpr ⟨⟨_, rfl, by decide, rfl⟩,
        List.forall_mem_singleton.mpr ⟨_, rfl, by decide, rfl⟩⟩

end Sample

/-- Three peers on from the first node is the second; on from the third is none. -/
theorem Registry.ring_path_sound :
    Sample.ring.heap.WellTyped Sample.registry ∧ 2 < Sample.ring.heap.length ∧
    (∀ h ∈ [0, 2], Sample.registry.declaredType (Sample.ring.heap.get h).typeName
      "peer.peer.peer.label" = .ok .text) ∧
    ∀ h ∈ [0, 2],
      (∃ v, Sample.registry.getPath Sample.ring.heap h "peer.peer.peer.label" = .ok v ∧
        PropertyType.text.Holds Sample.ring.heap v) ∧
      Sample.registry.Writing Sample.ring.heap h "peer.peer.peer.label" (.text "d")
        (Sample.registry.setPath Sample.ring.heap h "peer.peer.peer.label" (.text "d")) := by
  have hdeclared : ∀ h ∈ [0, 2], Sample.registry.declaredType (Sample.ring.heap.get h).typeName
      "peer.peer.peer.label" = .ok .text :=
    List.forall_mem_cons.mpr ⟨rfl, List.forall_mem_singleton.mpr rfl⟩
  refine ⟨Sample.wellTyped_ring, by decide, hdeclared, fun h hh => ?_⟩
  have hlt : ∀ h ∈ [0, 2], h < Sample.ring.heap.length := by decide
  obtain ⟨hread, hwrite, -⟩ :=
    path_sound Sample.wellTyped_ring (hlt h hh) (hdeclared h hh)
  exact ⟨hread, hwrite _⟩

end Fieldwise
