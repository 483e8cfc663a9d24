import Fieldwise.PropertyValue
import Fieldwise.Table

/-!
Business objects and the heap that they live in. What an object holds is a table of raw values; the
kind of the object says what its id and its identifier are. Objects refer to each other by their
places in the heap, so any shape of graph can be held.
-/

namespace Fieldwise

/-- The raw values that an object holds, by property. -/
abbrev Cells := Table String PropertyValue

/-- What all objects of one make have in common. -/
structure ObjectKind where
  /-- Tells makes apart that have one type name. -/
  make : String
  typeName : String
  id? : Cells → Option String
  setId : String → Cells → Cells
  /-- The name that stands for the object where it is not shown itself. -/
  identifier : Cells → String

structure BusinessObject where
  kind : ObjectKind
  cells : Cells

namespace BusinessObject

def typeName (o : BusinessObject) : String := o.kind.typeName

def id? (o : BusinessObject) : Option String := o.kind.id? o.cells

def withId (id : String) (o : BusinessObject) : BusinessObject :=
  { o with cells := o.kind.setId id o.cells }

def identifier (o : BusinessObject) : String := o.kind.identifier o.cells

/-- What is found where there is no object. -/
def nothing : BusinessObject := ⟨⟨"", "", fun _ => none, fun _ cells => cells, fun _ => ""⟩, []⟩

end BusinessObject

abbrev Heap := List BusinessObject

namespace Heap

def get (heap : Heap) (h : Handle) : BusinessObject := heap[h]?.getD .nothing

def put (heap : Heap) (h : Handle) (o : BusinessObject) : Heap := heap.set h o

/-- A new object and its place. -/
def add (heap : Heap) (o : BusinessObject) : Handle × Heap := (heap.length, heap ++ [o])

theorem get_put_self {heap : Heap} {h : Handle} (hh : h < heap.length) (o : BusinessObject) :
    (heap.put h o).get h = o := by
  simp [get, put, hh]

theorem get_put_of_ne {heap : Heap} {h h' : Handle} (hne : h ≠ h') (o : BusinessObject) :
    (heap.put h o).get h' = heap.get h' := by
  simp [get, put, List.getElem?_set_ne hne]

theorem forall_get_put {heap : Heap} {h : Handle} {o : BusinessObject}
    {P : Handle → BusinessObject → Prop} (hself : P h o)
    (hothers : ∀ g < heap.length, P g (heap.get g)) :
    ∀ g < heap.length, P g ((heap.put h o).get g) := by
  intro g hg
  by_cases hgh : h = g
  · subst hgh
    rw [get_put_self hg]
    exact hself
  · rw [get_put_of_ne hgh]
    exact hothers g hg

@[simp] theorem length_put (heap : Heap) (h : Handle) (o : BusinessObject) :
    (heap.put h o).length = heap.length := by
  simp [put]

theorem get_of_extends {heap heap' : Heap} (h : heap <+: heap') {g : Handle}
    (hg : g < heap.length) : heap'.get g = heap.get g := by
  obtain ⟨more, rfl⟩ := h
  simp [get, List.getElem?_append_left hg]

end Heap

end Fieldwise
