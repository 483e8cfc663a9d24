import Fieldwise.Conversion.Reading
import Fieldwise.EntityType.Definition
import Mathlib.Data.Finset.Card

/-!
Heaps in which no reference leads out of the heap, and how many of their objects have not been
visited yet.
-/

namespace Fieldwise

/-- No property of an object refers to anything but objects of the heap. -/
def Heap.Closed (r : Registry) (heap : Heap) : Prop :=
  ∀ h < heap.length, ∀ property v, r.getProperty heap h property = .ok v →
    ∀ g ∈ v.references, g < heap.length

theorem PropertyDefinition.exists_cell_of_mem_references {p : PropertyDefinition}
    {o : BusinessObject} {g : Handle} (h : g ∈ (p.get o).references) :
    ∃ v, (p.name, v) ∈ o.cells ∧ g ∈ v.references := by
  unfold get at h
  cases hcell : o.cells.get? p.name with
  | some v =>
    rw [hcell] at h
    exact ⟨v, Table.mem_of_get? hcell, h⟩
  | none =>
    rw [hcell] at h
    simp only [Option.getD_none, initial, absent] at h
    repeat' split at h
    all_goals simp [PropertyValue.references] at h

theorem Heap.closed_of_cells {r : Registry} {heap : Heap}
    (htypes : ∀ entry ∈ r.types, ∃ d : TypeDefinition, d.entityType = entry.2)
    (hcells : ∀ o ∈ heap, ∀ cell ∈ o.cells, ∀ g ∈ cell.2.references, g < heap.length) :
    heap.Closed r := by
  intro h hh property v hget g hg
  have hmem : heap.get h ∈ heap := by simp [get, hh]
  simp only [Registry.getProperty, Registry.accessor] at hget
  split at hget
  · cases hget
  rename_i type htype
  obtain ⟨d, hd⟩ := htypes _ (Table.mem_of_get? htype)
  split at hget
  · cases hget
  rename_i a ha
  subst hd
  -- An accessor of a definition is that of one of its properties, and reads the cell of it.
  obtain ⟨p, hp, hpa⟩ := List.mem_map.mp (Table.mem_of_mem_ofList (Table.mem_of_get? ha))
  obtain rfl : p.accessor d.name = a := (Prod.mk.inj hpa).2
  obtain rfl : p.get (heap.get h) = v := by
    simp only [bind, Except.bind, PropertyDefinition.accessor] at hget
    split at hget
    · simpa using hget
    · cases hget
  obtain ⟨u, hcell, hu⟩ := PropertyDefinition.exists_cell_of_mem_references hg
  exact hcells _ hmem _ hcell g hu

namespace Registry

theorem follow_lt {r : Registry} {heap : Heap} (hclosed : heap.Closed r) {h : Handle}
    (hh : h < heap.length) {properties : List String} {v : PropertyValue}
    (hv : r.follow heap h properties = .ok v) {g : Handle} (hg : g ∈ v.references) :
    g < heap.length := by
  induction properties generalizing h with
  | nil =>
    obtain rfl : PropertyValue.null = v := by simpa [follow] using hv
    simp [PropertyValue.references] at hg
  | cons property rest ih =>
    cases rest with
    | nil => exact hclosed h hh property v hv g hg
    | cons next rest =>
      simp only [follow] at hv
      cases hget : r.getProperty heap h property with
      | error e => simp [hget, bind, Except.bind] at hv
      | ok u =>
        simp only [hget, bind, Except.bind] at hv
        split at hv
        · rename_i target
          have htarget : target < heap.length :=
            hclosed h hh property _ hget target (by simp [PropertyValue.references])
          exact ih htarget hv
        · obtain rfl : PropertyValue.null = v := by simpa using hv
          simp [PropertyValue.references] at hg
        · cases hv

theorem getPath_lt {r : Registry} {heap : Heap} (hclosed : heap.Closed r) {h : Handle}
    (hh : h < heap.length) {path : String} {v : PropertyValue}
    (hv : r.getPath heap h path = .ok v) {g : Handle} (hg : g ∈ v.references) :
    g < heap.length :=
  follow_lt hclosed hh hv hg

end Registry

/-- How many objects of the heap have an identity that has not been visited. -/
def unvisited (heap : Heap) (visited : List IdentityKey) : Nat :=
  ((Finset.range heap.length).filter fun h => IdentityKey.of heap h ∉ visited).card

theorem unvisited_le_length (heap : Heap) (visited : List IdentityKey) :
    unvisited heap visited ≤ heap.length := by
  simpa [unvisited] using Finset.card_filter_le (Finset.range heap.length)
    fun h => IdentityKey.of heap h ∉ visited

theorem unvisited_append_le (heap : Heap) (visited more : List IdentityKey) :
    unvisited heap (visited ++ more) ≤ unvisited heap visited := by
  apply Finset.card_le_card
  intro h hh
  simp only [Finset.mem_filter, List.mem_append, not_or] at hh ⊢
  exact ⟨hh.1, hh.2.1⟩

/-- Each visit of an object that was not visited before leaves fewer to visit. -/
theorem unvisited_visit_lt {heap : Heap} {visited : List IdentityKey} {h : Handle}
    (hh : h < heap.length) (hnew : .of heap h ∉ visited) :
    unvisited heap (visited ++ [.of heap h]) < unvisited heap visited := by
  apply Finset.card_lt_card
  rw [Finset.ssubset_iff_of_subset]
  · exact ⟨h, by simp [hh, hnew], by simp⟩
  · intro g hg
    simp only [Finset.mem_filter, List.mem_append, not_or] at hg ⊢
    exact ⟨hg.1, hg.2.1⟩

end Fieldwise
