import Fieldwise.Proofs.Conversion.RoundTrip
import Fieldwise.Proofs.Registry.Shapes
import Fieldwise.Proofs.Registry.Soundness

/-!
What writing a path leaves behind, where accessors work like cells. The properties before the last
are read, in the heap as it was; then one cell is set, or none if the way ends at null. Objects may
form any graph, so the cell may be one that was read on the way, and then the path may lead
elsewhere afterwards. If it is not, the path leads to the value that was written.
-/

namespace Fieldwise

namespace Registry

variable {r : Registry} {heap heap' : Heap} {h g : Handle} {path property : String}
  {way : List String} {v : PropertyValue}

/-- The cells that are read while the names of properties are followed. -/
def cellsOn (r : Registry) (heap : Heap) (h : Handle) : List String → List (Handle × String)
  | [] => []
  | property :: rest =>
    (h, property) :: match r.getProperty heap h property with
      | .ok (.reference next) => r.cellsOn heap next rest
      | _ => []

theorem LeadsTo.follow_eq (hway : r.LeadsTo heap h way g) (hne : way ≠ []) :
    r.follow heap h way = .ok (.reference g) := by
  induction hway with
  | here => exact absurd rfl hne
  | on hnext hrest ih =>
    cases hrest with
    | here => exact hnext
    | on _ _ =>
      rw [(follow_cons_of_eq (by simp) hnext).1 _ rfl]
      exact ih (by simp)

theorem EndsAtNull.ne_nil (hnull : r.EndsAtNull heap h way) : way ≠ [] := by
  cases hnull <;> simp

theorem EndsAtNull.follow_eq (hnull : r.EndsAtNull heap h way) :
    r.follow heap h way = .ok .null := by
  induction hnull with
  | @here h property rest hnull =>
    cases rest with
    | nil => exact hnull
    | cons _ _ => exact (follow_cons_of_eq (by simp) hnull).2 rfl
  | on hnext hrest ih => rw [(follow_cons_of_eq hrest.ne_nil hnext).1 _ rfl, ih]

theorem LeadsTo.lt (hway : r.LeadsTo heap h way g) (hclosed : heap.Closed r)
    (hh : h < heap.length) : g < heap.length := by
  induction hway with
  | here => exact hh
  | on hnext _ ih => exact ih (hclosed _ hh _ _ hnext _ (by simp [PropertyValue.references]))

/-- A way leads where it led if the cells that were read on it are as they were. -/
theorem LeadsTo.of_cellsOn (hway : r.LeadsTo heap h way g)
    (hsame : ∀ cell ∈ r.cellsOn heap h way,
      r.getProperty heap' cell.1 cell.2 = r.getProperty heap cell.1 cell.2) :
    r.LeadsTo heap' h way g := by
  induction hway with
  | here => exact .here
  | on hnext _ ih =>
    rw [cellsOn, List.forall_mem_cons, hnext] at hsame
    exact .on hsame.1 (ih hsame.2)

/-- A path can be written where the way to its last property leads to an object whose property can
be set, and where the way ends at null and null is written. -/
theorem setPath_eq_ok_iff (hpath : Text.pieces '.' path = way ++ [property]) :
    r.setPath heap h path v = .ok heap' ↔
      (v = .null ∧ r.EndsAtNull heap h way ∧ heap' = heap) ∨
      ∃ g, r.LeadsTo heap h way g ∧ r.setProperty heap g property v = .ok heap' := by
  have hpieces := Text.pieces_eq_of_splitAtLast? '.' path
  rw [hpath] at hpieces
  unfold setPath
  -- The path is cut at its last separator here, and at each of them where it is read.
  cases hsplit : Text.splitAtLast? '.' path with
  | none =>
    simp only [hsplit] at hpieces ⊢
    obtain ⟨rfl, hlast⟩ := List.append_inj' (hpieces.trans (List.nil_append [path]).symm) rfl
    obtain rfl := List.singleton_inj.mp hlast
    constructor
    · intro hset
      exact .inr ⟨h, .here, hset⟩
    · rintro (⟨-, hnull, -⟩ | ⟨g, ⟨⟩, hset⟩)
      · exact absurd rfl hnull.ne_nil
      · exact hset
  | some split =>
    obtain ⟨front, last⟩ := split
    simp only [hsplit] at hpieces ⊢
    obtain ⟨rfl, hlast⟩ := List.append_inj' hpieces rfl
    obtain rfl := List.singleton_inj.mp hlast
    have hne := Text.pieces_ne_nil '.' front
    constructor
    · intro hset
      obtain ⟨u, hu, hset⟩ := except_bind_eq_ok.mp hset
      cases u with
      | reference target => exact .inr ⟨target, leadsTo_of_follow hne hu, hset⟩
      | null =>
        dsimp only at hset
        split at hset
        · next hv =>
          have hv : v = .null := by cases v <;> first | rfl | cases hv
          exact .inl ⟨hv, endsAtNull_of_follow hne hu, (Except.ok.inj hset).symm⟩
        · cases hset
      | _ => cases hset
    · rintro (⟨rfl, hnull, rfl⟩ | ⟨g, hway, hset⟩)
      · exact except_bind_eq_ok.mpr ⟨.null, hnull.follow_eq, rfl⟩
      · exact except_bind_eq_ok.mpr ⟨.reference g, hway.follow_eq hne, hset⟩

end Registry

/-- The accessors of an object work like cells: a property that could be set has the value, and all
others have theirs. A setter that fails gives no other object, so nothing is to be said of it. -/
structure BusinessObject.Cellwise (r : Registry) (o : BusinessObject) : Prop where
  stored : ∀ property v o', r.withValue o property v = .ok o' → r.valueOf o' property = .ok v
  others : ∀ property v o', r.withValue o property v = .ok o' → ∀ other, other ≠ property →
    r.valueOf o' other = r.valueOf o other

/-- Setters refuse what does not fit the type of the property. -/
def refusing : Deviation := fun a v o =>
  .error (.propertyAccess o.typeName a.name s!"a {v.label} value does not fit")

theorem Accessor.set_refusing_eq_ok {a : Accessor} {v : PropertyValue} {o o' : BusinessObject}
    (hset : (a.deviating refusing).set v o = .ok o') :
    a.type.fits v = true ∧ a.set v o = .ok o' := by
  cases hsetter : a.set? with
  | none => simp [Accessor.set, Accessor.deviating, hsetter] at hset
  | some set =>
    simp only [Accessor.set, Accessor.deviating, hsetter, Option.map_some] at hset ⊢
    split at hset
    · next hfits => exact ⟨hfits, hset⟩
    · cases hset

/-- The property can be null, and is no list. -/
def PropertyDefinition.isPlain (p : PropertyDefinition) : Bool :=
  match p.type with
  | .collection _ => false
  | _ => !p.neverNull

theorem PropertyDefinition.get_set_of_fits {p : PropertyDefinition} (hplain : p.isPlain = true)
    {v : PropertyValue} (hfits : p.type.fits v = true) (o : BusinessObject) :
    p.get (p.set v o) = v := by
  obtain ⟨name, type, neverNull, readOnly⟩ := p
  rw [get_set_self]
  cases type with
  | collection target => cases hplain
  | _ =>
    obtain rfl : neverNull = false := by simpa [isPlain] using hplain
    cases v <;> first | rfl | cases hfits

/-- With plain properties only, whose setters refuse what does not fit, accessors work like
cells. -/
theorem Registry.cellwise_of_definitions {r : Registry} {ds : List TypeDefinition}
    (hr : r.types = ds.map fun d => (d.name, d.entityType))
    (hplain : ∀ d ∈ ds, ∀ p ∈ d.properties, p.isPlain = true) (o : BusinessObject) :
    o.Cellwise (r.deviating refusing) := by
  have hset {property : String} {v : PropertyValue} {o' : BusinessObject}
      (hwith : (r.deviating refusing).withValue o property v = .ok o') :
      ∃ p : PropertyDefinition, p.name = property ∧ o' = p.set v o ∧
        r.valueOf o' property = .ok v := by
    obtain ⟨a, ha, hset⟩ := withValue_eq_ok_iff.mp hwith
    rw [accessor_deviating] at ha
    cases hb : r.accessor o.typeName property with
    | error e => simp [hb, Except.map] at ha
    | ok b =>
      obtain rfl : b.deviating refusing = a := by simpa [hb, Except.map] using ha
      obtain ⟨d, hd, -, p, hp, hname, rfl⟩ := accessor_of_definitions hr hb
      obtain ⟨hfits, hset⟩ := Accessor.set_refusing_eq_ok hset
      obtain ⟨hmake, rfl⟩ := PropertyDefinition.accessor_set_eq_ok hset
      have hget : (p.accessor d.name).get (p.set v o) = .ok (p.get (p.set v o)) := if_pos hmake
      refine ⟨p, hname, rfl, ?_⟩
      rw [valueOf_of_accessor (o := p.set v o) hb, hget, p.get_set_of_fits (hplain d hd p hp) hfits]
  constructor
  · intro property v o' hwith
    obtain ⟨-, -, -, hholds⟩ := hset hwith
    rw [valueOf_deviating, hholds]
  · intro property v o' hwith other hother
    obtain ⟨p, rfl, rfl, -⟩ := hset hwith
    rw [valueOf_deviating, valueOf_deviating]
    exact valueOf_set_of_ne hr hother v

/-- The second heap is the first one but for one cell, which has the value. -/
structure Heap.SetsCell (r : Registry) (heap : Heap) (g : Handle) (property : String)
    (v : PropertyValue) (heap' : Heap) : Prop where
  length : heap'.length = heap.length
  objects : ∀ g', g' ≠ g → heap'.get g' = heap.get g'
  others : ∀ g' other, (g', other) ≠ (g, property) →
    r.getProperty heap' g' other = r.getProperty heap g' other
  holds : r.getProperty heap' g property = .ok v

namespace Heap.SetsCell

variable {r : Registry} {heap heap' : Heap} {h g : Handle} {property : String}
  {way : List String} {v : PropertyValue}

theorem of_setProperty (hg : g < heap.length) (hcells : (heap.get g).Cellwise r)
    (hset : r.setProperty heap g property v = .ok heap') :
    heap.SetsCell r g property v heap' := by
  obtain ⟨o, ho, rfl⟩ := Registry.setProperty_eq_ok_iff.mp hset
  have hself : (heap.put g o).get g = o := Heap.get_put_self hg o
  have hothers : ∀ g', g' ≠ g → (heap.put g o).get g' = heap.get g' :=
    fun g' hne => Heap.get_put_of_ne (Ne.symm hne) o
  refine ⟨Heap.length_put heap g o, hothers, fun g' other hne => ?_, ?_⟩
  · by_cases hg' : g' = g
    · subst hg'
      have hother : other ≠ property := fun heq => hne (heq ▸ rfl)
      exact (congrArg (r.valueOf · other) hself).trans
        (hcells.others property v o ho other hother)
    · exact congrArg (r.valueOf · other) (hothers g' hg')
  · exact (congrArg (r.valueOf · property) hself).trans (hcells.stored property v o ho)

/-- A way that does not pass the cell leads where it led. -/
theorem leadsTo (hcell : heap.SetsCell r g property v heap') (hway : r.LeadsTo heap h way g)
    (haside : (g, property) ∉ r.cellsOn heap h way) : r.LeadsTo heap' h way g := by
  refine hway.of_cellsOn fun cell hread => hcell.others cell.1 cell.2 fun heq => ?_
  exact haside (heq ▸ hread)

end Heap.SetsCell

/-- If writing a path succeeds, the value is null and so is a property on the way, and nothing has
changed; or the way led to an object whose last property has the value now, and no other cell has
changed. Unless that cell was read on the way, the path leads to the value. If it fails, nothing has
changed, and neither could be done. -/
theorem Registry.setPath_setsCell {r : Registry} {w : World} {h : Handle}
    (hcells : ∀ o ∈ w.heap, o.Cellwise r) (hclosed : w.heap.Closed r) (hh : h < w.heap.length)
    (path : String) (v : PropertyValue) :
    ∃ way property, Text.pieces '.' path = way ++ [property] ∧
      Ends False
        (fun w' => w' = w ∧ ¬ (v = .null ∧ r.EndsAtNull w.heap h way) ∧
          ∀ g o, r.LeadsTo w.heap h way g → r.withValue (w.heap.get g) property v ≠ .ok o)
        (fun _ w' =>
          (v = .null ∧ r.EndsAtNull w.heap h way ∧ w' = w) ∨
          ∃ g heap', w' = { w with heap := heap' } ∧ r.LeadsTo w.heap h way g ∧
            w.heap.SetsCell r g property v heap' ∧
            ((g, property) ∉ r.cellsOn w.heap h way → r.getPath heap' h path = .ok v))
        (Action.changeHeap (fun heap => r.setPath heap h path v) w) := by
  obtain ⟨way, property, hpath⟩ : ∃ way property, Text.pieces '.' path = way ++ [property] :=
    ⟨_, _, (List.dropLast_concat_getLast (Text.pieces_ne_nil '.' path)).symm⟩
  refine ⟨way, property, hpath, ?_⟩
  cases hset : r.setPath w.heap h path v with
  | error e =>
    simp only [Action.changeHeap, hset, Ends]
    have hnot (heap' : Heap) : r.setPath w.heap h path v ≠ .ok heap' := by simp [hset]
    refine ⟨trivial, ?_, ?_⟩
    · rintro ⟨hv, hnull⟩
      exact hnot w.heap ((setPath_eq_ok_iff hpath).mpr (.inl ⟨hv, hnull, rfl⟩))
    · intro g o hway ho
      have hput := setProperty_eq_ok_iff.mpr ⟨o, ho, rfl⟩
      exact hnot _ ((setPath_eq_ok_iff hpath).mpr (.inr ⟨g, hway, hput⟩))
  | ok heap' =>
    simp only [Action.changeHeap, hset, Ends]
    rcases (setPath_eq_ok_iff hpath).mp hset with ⟨hv, hnull, rfl⟩ | ⟨g, hway, hset⟩
    · exact .inl ⟨hv, hnull, rfl⟩
    · have hg : g < w.heap.length := hway.lt hclosed hh
      have hcell : w.heap.SetsCell r g property v heap' :=
        .of_setProperty hg (hcells _ (by simp [Heap.get, hg])) hset
      refine .inr ⟨g, heap', rfl, hway, hcell, fun haside => ?_⟩
      rw [getPath, hpath, (hcell.leadsTo hway haside).follow_concat]
      exact hcell.holds

namespace Sample

def strictRegistry : Registry := noteRegistry.deviating refusing

theorem cellwise_strict (o : BusinessObject) : o.Cellwise strictRegistry := by
  have hr : noteRegistry.types = [note].map fun d => (d.name, d.entityType) := rfl
  have hplain : ∀ d ∈ [note], ∀ p ∈ d.properties, p.isPlain = true :=
    List.forall_mem_singleton.mpr (by decide)
  exact Registry.cellwise_of_definitions hr hplain o

theorem closed_notes : notes.heap.Closed strictRegistry := by
  have hclosed : notes.heap.Closed noteRegistry := by
    refine Heap.closed_of_cells (fun entry hentry => ?_) (by decide)
    obtain rfl := List.mem_singleton.mp hentry
    exact ⟨note, rfl⟩
  intro h hh property v hv
  rw [strictRegistry, Registry.getProperty_deviating] at hv
  exact hclosed h hh property v hv

end Sample

/-- The way around the circle leads back to the first note, whose title is not read on it. -/
theorem Registry.notes_setPath_setsCell :
    (∀ o ∈ Sample.notes.heap, o.Cellwise Sample.strictRegistry) ∧
    Sample.notes.heap.Closed Sample.strictRegistry ∧ 0 < Sample.notes.heap.length ∧
    ∃ heap', Sample.strictRegistry.setPath Sample.notes.heap 0 "next.next.title"
        (.text "again") = .ok heap' ∧
      Sample.notes.heap.SetsCell Sample.strictRegistry 0 "title" (.text "again") heap' ∧
      Sample.strictRegistry.getPath heap' 0 "next.next.title" = .ok (.text "again") := by
  have hcells : ∀ o ∈ Sample.notes.heap, o.Cellwise Sample.strictRegistry :=
    fun o _ => Sample.cellwise_strict o
  have hh : 0 < Sample.notes.heap.length := by decide
  refine ⟨hcells, Sample.closed_notes, hh, ?_⟩
  obtain ⟨way, property, hpath, hends⟩ :=
    setPath_setsCell hcells Sample.closed_notes hh "next.next.title" (.text "again")
  have hpieces : Text.pieces '.' "next.next.title" = ["next", "next"] ++ ["title"] := rfl
  obtain ⟨rfl, hlast⟩ := List.append_inj' (hpieces.symm.trans hpath) rfl
  obtain rfl := List.singleton_inj.mp hlast
  obtain ⟨heap', hset⟩ : ∃ heap', Sample.strictRegistry.setPath Sample.notes.heap 0
      "next.next.title" (.text "again") = .ok heap' := ⟨_, rfl⟩
  simp only [Action.changeHeap, hset, Ends] at hends
  obtain ⟨g, _, hworld, hway, hcell, hread⟩ := hends.resolve_left (by simp)
  obtain rfl := congrArg World.heap hworld
  obtain rfl : g = 0 := by
    have hfollow := hway.follow_eq (by simp)
    exact (PropertyValue.reference.inj (Except.ok.inj hfollow)).symm
  exact ⟨heap', hset, hcell, hread (by decide)⟩

/-- The second note is its own parent, so writing its parent changes the way to it. -/
example : (do
    let heap ← Sample.strictRegistry.setPath Sample.notes.heap 0 "next.parent.parent"
      (.reference 0)
    Sample.strictRegistry.getPath heap 0 "next.parent.parent") = .ok .null := rfl

end Fieldwise
