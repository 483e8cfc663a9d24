import Fieldwise.Proofs.Conversion.Scalars
import Fieldwise.Proofs.Outcome
import Fieldwise.Registry
import Mathlib.Data.List.TakeWhile

/-!
Paths of properties over objects that hold what their types declare. A path that has a declared
type leads to a value of that type, or to null, and its last step is taken from an object of the
type that is declared for the rest of it, unless that rest leads to null.
-/

namespace Fieldwise

namespace Text

theorem splitAt_of_notMem {sep : Char} {cs : List Char} (h : sep ∉ cs) : splitAt sep cs = [cs] := by
  induction cs with
  | nil => rfl
  | cons c cs ih =>
    simp only [List.mem_cons, not_or] at h
    simp [splitAt, Ne.symm h.1, ih h.2]

theorem splitAt_append (sep : Char) (front back : List Char) :
    splitAt sep (front ++ sep :: back) = splitAt sep front ++ splitAt sep back := by
  induction front with
  | nil => simp [splitAt]
  | cons c front ih =>
    obtain ⟨piece, pieces, h⟩ := List.exists_cons_of_ne_nil (splitAt_ne_nil sep front)
    rw [List.cons_append, splitAt, splitAt, ih, h]
    split <;> rfl

theorem pieces_ne_nil (sep : Char) (s : String) : pieces sep s ≠ [] := by
  simp [pieces, splitAt_ne_nil]

theorem pieces_eq_of_splitAtLast? (sep : Char) (s : String) :
    pieces sep s = match splitAtLast? sep s with
      | none => [s]
      | some (front, back) => pieces sep front ++ [back] := by
  have hsplit := List.takeWhile_append_dropWhile (p := (· != sep)) (l := s.toList.reverse)
  simp only [splitAtLast?]
  cases hdrop : s.toList.reverse.dropWhile (· != sep) with
  | nil =>
    have hmem : sep ∉ s.toList := by
      intro hmem
      have hne := List.dropWhile_eq_nil_iff.mp hdrop sep (by simpa using hmem)
      simp at hne
    simp [pieces, splitAt_of_notMem hmem]
  | cons c rest =>
    have hlast : sep ∉ (s.toList.reverse.takeWhile (· != sep)).reverse := by
      intro hmem
      have hne := List.mem_takeWhile_imp (List.mem_reverse.mp hmem)
      simp at hne
    have hc : c = sep := by
      have hhead := List.head?_dropWhile_not (· != sep) s.toList.reverse
      rw [hdrop] at hhead
      simpa using hhead
    rw [hdrop, hc] at hsplit
    generalize s.toList.reverse.takeWhile (· != sep) = back at hsplit hlast ⊢
    have hs : s.toList = rest.reverse ++ sep :: back.reverse := by
      simpa using (congrArg List.reverse hsplit).symm
    simp [pieces, hs, splitAt_append, splitAt_of_notMem hlast]

end Text

theorem PropertyType.Holds.null_or_refers {heap : Heap} {target : String} {v : PropertyValue}
    (h : (reference target).Holds heap v) : v = .null ∨ heap.Refers target v := by
  cases v with
  | null => exact .inl rfl
  | _ => exact .inr h

namespace Registry

variable {r : Registry}

/-- The accessor of the property at the end of the names of properties, by the declared types. -/
def accessorAlong (r : Registry) (typeName : String) : List String → Except Error Accessor
  | [] => .error (.propertyAccess typeName "" "empty property path")
  | [property] => r.accessor typeName property
  | property :: rest => do
    match (← r.accessor typeName property).type with
    | .reference target => r.accessorAlong target rest
    | other =>
      .error (.propertyAccess typeName property
        s!"cannot traverse into a {other.description} property")

theorem declaredAlong_eq (r : Registry) (typeName : String) (properties : List String) :
    r.declaredAlong typeName properties =
      (r.accessorAlong typeName properties).map (·.type) := by
  induction properties generalizing typeName with
  | nil => rfl
  | cons property rest ih =>
    cases rest with
    | nil =>
      simp only [declaredAlong, accessorAlong]
      cases r.accessor typeName property <;> rfl
    | cons next rest =>
      simp only [declaredAlong, accessorAlong]
      cases r.accessor typeName property with
      | error e => rfl
      | ok a =>
        simp only [bind, Except.bind]
        cases a.type with
        | reference target => exact ih target
        | _ => rfl

theorem accessorAlong_cons_eq_ok {typeName property : String} {rest : List String}
    (hrest : rest ≠ []) {a : Accessor}
    (ha : r.accessorAlong typeName (property :: rest) = .ok a) :
    ∃ b target, r.accessor typeName property = .ok b ∧ b.type = .reference target ∧
      r.accessorAlong target rest = .ok a := by
  cases rest with
  | nil => exact absurd rfl hrest
  | cons next rest =>
    obtain ⟨b, hb, ha⟩ := except_bind_eq_ok.mp ha
    cases htype : b.type with
    | reference target =>
      rw [htype] at ha
      exact ⟨b, target, hb, htype, ha⟩
    | _ => simp [htype] at ha

theorem accessorAlong_concat_eq_ok {typeName property : String} {way : List String}
    (hway : way ≠ []) {a : Accessor}
    (ha : r.accessorAlong typeName (way ++ [property]) = .ok a) :
    ∃ b target, r.accessorAlong typeName way = .ok b ∧ b.type = .reference target ∧
      r.accessor target property = .ok a := by
  induction way generalizing typeName with
  | nil => exact absurd rfl hway
  | cons first rest ih =>
    obtain ⟨b, target, hb, htype, ha⟩ := accessorAlong_cons_eq_ok (by simp) ha
    by_cases hrest : rest = []
    · subst hrest
      exact ⟨b, target, hb, htype, ha⟩
    · obtain ⟨b', target', hb', htype', ha'⟩ := ih hrest ha
      refine ⟨b', target', ?_, htype', ha'⟩
      obtain ⟨next, rest, rfl⟩ := List.exists_cons_of_ne_nil hrest
      simp only [accessorAlong, hb, htype, bind, Except.bind]
      exact hb'

def valueOf (r : Registry) (o : BusinessObject) (property : String) :
    Except Error PropertyValue := do
  (← r.accessor o.typeName property).get o

theorem valueOf_of_accessor {o : BusinessObject} {property : String} {a : Accessor}
    (ha : r.accessor o.typeName property = .ok a) : r.valueOf o property = a.get o := by
  rw [valueOf, ha]
  rfl

def withValue (r : Registry) (o : BusinessObject) (property : String) (v : PropertyValue) :
    Except Error BusinessObject := do
  (← r.accessor o.typeName property).set v o

theorem withValue_eq_ok_iff {o o' : BusinessObject} {property : String} {v : PropertyValue} :
    r.withValue o property v = .ok o' ↔
      ∃ a, r.accessor o.typeName property = .ok a ∧ a.set v o = .ok o' :=
  except_bind_eq_ok

theorem setProperty_eq_ok_iff {heap heap' : Heap} {h : Handle} {property : String}
    {v : PropertyValue} :
    r.setProperty heap h property v = .ok heap' ↔
      ∃ o, r.withValue (heap.get h) property v = .ok o ∧ heap' = heap.put h o := by
  simp only [withValue_eq_ok_iff]
  constructor
  · intro hset
    obtain ⟨a, ha, hset⟩ := except_bind_eq_ok.mp hset
    obtain ⟨o, ho, hput⟩ := except_bind_eq_ok.mp hset
    exact ⟨o, ⟨a, ha, ho⟩, (Except.ok.inj hput).symm⟩
  · rintro ⟨o, ⟨a, ha, ho⟩, rfl⟩
    exact except_bind_eq_ok.mpr ⟨a, ha, except_bind_eq_ok.mpr ⟨o, ho, rfl⟩⟩

end Registry

/-- Each property of an object of the heap is null or a value of its declared type. -/
def Heap.WellTyped (r : Registry) (heap : Heap) : Prop :=
  ∀ h < heap.length, ∀ property a, r.accessor (heap.get h).typeName property = .ok a →
    ∃ v, a.get (heap.get h) = .ok v ∧ a.type.Holds heap v

namespace Registry

variable {r : Registry} {heap : Heap}

theorem getProperty_of_accessor (hheap : heap.WellTyped r) {h : Handle} (hh : h < heap.length)
    {property : String} {a : Accessor} (ha : r.accessor (heap.get h).typeName property = .ok a) :
    ∃ v, r.getProperty heap h property = .ok v ∧ a.type.Holds heap v := by
  obtain ⟨v, hv, hholds⟩ := hheap h hh property a ha
  refine ⟨v, ?_, hholds⟩
  simp only [getProperty, ha]
  exact hv

theorem setProperty_of_accessor {h : Handle} {property : String} {a : Accessor}
    (ha : r.accessor (heap.get h).typeName property = .ok a) (v : PropertyValue) :
    r.setProperty heap h property v = (do pure (heap.put h (← a.set v (heap.get h)))) := by
  simp only [setProperty, ha, bind, Except.bind]

theorem follow_cons_of_eq {h : Handle} {property : String} {rest : List String}
    (hrest : rest ≠ []) {v : PropertyValue} (hv : r.getProperty heap h property = .ok v) :
    (∀ g, v = .reference g → r.follow heap h (property :: rest) = r.follow heap g rest) ∧
    (v = .null → r.follow heap h (property :: rest) = .ok .null) := by
  obtain ⟨next, rest, rfl⟩ := List.exists_cons_of_ne_nil hrest
  refine ⟨?_, ?_⟩
  · rintro g rfl
    simp [follow, hv, bind, Except.bind]
  · rintro rfl
    simp [follow, hv, bind, Except.bind]

theorem follow_cons_eq_ok {h : Handle} {property : String} {rest : List String}
    (hrest : rest ≠ []) {v : PropertyValue} (hv : r.follow heap h (property :: rest) = .ok v) :
    (∃ g, r.getProperty heap h property = .ok (.reference g) ∧ r.follow heap g rest = .ok v) ∨
      r.getProperty heap h property = .ok .null ∧ v = .null := by
  obtain ⟨next, rest, rfl⟩ := List.exists_cons_of_ne_nil hrest
  obtain ⟨u, hu, hv⟩ := except_bind_eq_ok.mp hv
  cases u with
  | reference g => exact .inl ⟨g, hu, hv⟩
  | null => exact .inr ⟨hu, (Except.ok.inj hv).symm⟩
  | _ => cases hv

theorem follow_of_accessorAlong (hheap : heap.WellTyped r) {h : Handle} (hh : h < heap.length)
    {properties : List String} {a : Accessor}
    (ha : r.accessorAlong (heap.get h).typeName properties = .ok a) :
    ∃ v, r.follow heap h properties = .ok v ∧ a.type.Holds heap v := by
  induction properties generalizing h with
  | nil => simp [accessorAlong] at ha
  | cons property rest ih =>
    by_cases hrest : rest = []
    · subst hrest
      exact getProperty_of_accessor hheap hh ha
    · obtain ⟨b, target, hb, htype, ha⟩ := accessorAlong_cons_eq_ok hrest ha
      obtain ⟨v, hv, hholds⟩ := getProperty_of_accessor hheap hh hb
      obtain ⟨hreference, hnull⟩ := follow_cons_of_eq hrest hv
      rw [htype] at hholds
      rcases hholds.null_or_refers with rfl | ⟨g, rfl, hg, hname⟩
      · exact ⟨.null, hnull rfl, trivial⟩
      · rw [hreference g rfl]
        exact ih hg (hname ▸ ha)

/-- One more step after a path that has led to an object, or to null. -/
theorem follow_concat {h : Handle} {way : List String} (hway : way ≠ []) (property : String)
    {v : PropertyValue} (hv : r.follow heap h way = .ok v) :
    (∀ g, v = .reference g →
      r.follow heap h (way ++ [property]) = r.getProperty heap g property) ∧
    (v = .null → r.follow heap h (way ++ [property]) = .ok .null) := by
  induction way generalizing h with
  | nil => exact absurd rfl hway
  | cons first rest ih =>
    by_cases hrest : rest = []
    · subst hrest
      exact follow_cons_of_eq (by simp) hv
    · have hcons {u : PropertyValue} (hu : r.getProperty heap h first = .ok u) :=
        @follow_cons_of_eq r heap h first (rest ++ [property]) (by simp) u hu
      rcases follow_cons_eq_ok hrest hv with ⟨g, hg, hv⟩ | ⟨hnull, rfl⟩
      · rw [List.cons_append, (hcons hg).1 g rfl]
        exact ih hrest hv
      · exact ⟨nofun, fun _ => (hcons hnull).2 rfl⟩

end Registry

end Fieldwise
