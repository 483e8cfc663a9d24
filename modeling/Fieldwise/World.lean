import Fieldwise.Error
import Fieldwise.Heap

/-!
All that changes while records are converted, and actions that change it. An action that fails
leaves behind what it has changed until then.
-/

namespace Fieldwise

structure World where
  heap : Heap
  /-- The stored objects, by the name of their type and their id. -/
  store : Table (String × String) Handle
  /-- Internal ids, by table and external id. -/
  bindings : Table (String × String) String
  /-- The types of tables that are known by now, and how often one had to be asked for. -/
  tableTypes : Table String String
  lookups : Nat
  /-- How many ids have been given out. -/
  issued : Nat

def World.empty : World := ⟨[], [], [], [], 0, 0⟩

/-- Why a conversion stops. -/
inductive Failure
  | error (e : Error)
  /-- A format of the settings cannot be applied to a value; this is no matter of one field. -/
  | unformattable
deriving DecidableEq

abbrev Action := EStateM Failure World

namespace Action

def lift {α : Type} (result : Except Error α) : Action α := fun w =>
  match result with
  | .ok a => .ok a w
  | .error e => .error (.error e) w

/-- Looks and changes nothing. -/
def observe {α : Type} (look : World → Except Error α) : Action α := fun w => lift (look w) w

def changeHeap (change : Heap → Except Error Heap) : Action Unit := fun w =>
  match change w.heap with
  | .ok heap => .ok () { w with heap }
  | .error e => .error (.error e) w

def addObject (o : BusinessObject) : Action Handle := fun w =>
  let (h, heap) := w.heap.add o
  .ok h { w with heap }

def fail {α : Type} (e : Error) : Action α := throw (.error e)

/-- Tells an error from further out. -/
def within {α : Type} (context : String) (action : Action α) : Action α := fun w =>
  match action w with
  | .error (.error e) w => .error (.error (e.within context)) w
  | result => result

end Action

end Fieldwise
