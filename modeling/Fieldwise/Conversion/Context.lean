import Fieldwise.Heap

/-!
The state of one conversion: which objects have been visited. An object with an id counts as
visited when any object of its type with that id has been; one without is known by its place.
-/

namespace Fieldwise

inductive Identity
  | business (id : String)
  | place (h : Handle)
deriving DecidableEq

structure IdentityKey where
  typeName : String
  identity : Identity
deriving DecidableEq

namespace IdentityKey

def of (heap : Heap) (h : Handle) : IdentityKey :=
  let o := heap.get h
  match o.id? with
  | some id => ⟨o.typeName, if id = "" then .place h else .business id⟩
  | none => ⟨o.typeName, .place h⟩

def businessId? (k : IdentityKey) : Option String :=
  match k.identity with
  | .business id => some id
  | .place _ => none

end IdentityKey

structure Context where
  /-- Without repetitions. -/
  visited : List IdentityKey
  /-- The whole record that is being written, if one is. -/
  root? : Option Record

namespace Context

def forRead : Context := ⟨[], none⟩

def forWrite (record : Record) : Context := ⟨[], some record⟩

def isVisited (c : Context) (k : IdentityKey) : Bool := c.visited.contains k

def visit (c : Context) (k : IdentityKey) : Context :=
  if c.isVisited k then c else { c with visited := c.visited ++ [k] }

def visitedCount (c : Context) : Nat := c.visited.length

end Context

/-- An object in two words, where it is not shown in full. -/
def Heap.stub (heap : Heap) (h : Handle) : Json :=
  let o := heap.get h
  let id := match o.id? with
    | some id => Json.text id
    | none => .null
  .object [("id", id), ("identifier", .text o.identifier)]

end Fieldwise
