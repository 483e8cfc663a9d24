import Fieldwise.Collaborators
import Fieldwise.Registry

/-!
Collaborators that keep what they are given in the world itself, and stamps for audits.
-/

namespace Fieldwise

def upperHexDigit (n : Nat) : Char :=
  if n < 10 then Char.ofNat ('0'.toNat + n) else Char.ofNat ('A'.toNat + (n - 10))

def hexNumeral : Nat → Nat → List Char
  | 0, _ => []
  | width + 1, n => hexNumeral width (n / 16) ++ [upperHexDigit (n % 16)]

def numberedId (n : Nat) : String := String.ofList (hexNumeral 32 n)

theorem numberedId_ne_empty (n : Nat) : numberedId n ≠ "" := by
  simp [numberedId, hexNumeral]

/-- Saves an object under its id, or under the next new one, which it gets. -/
def World.save (newId : Nat → String) (w : World) (h : Handle) : World :=
  let o := w.heap.get h
  match o.id?.filter (· ≠ "") with
  | some id => { w with store := w.store.put (o.typeName, id) h }
  | none =>
    let id := newId w.issued
    { w with
      heap := w.heap.put h (o.withId id)
      store := w.store.put (o.typeName, id) h
      issued := w.issued + 1 }

def Persistence.inMemory (newId : Nat → String) : Persistence where
  load typeName id w := .ok (w.store.get? (typeName, id))
  save h := fun w => .ok () (w.save newId h)

def ExternalIds.inMemory : ExternalIds where
  resolve table externalId w := .ok (w.bindings.get? (table, externalId))
  bind table externalId id :=
    fun w => .ok () { w with bindings := w.bindings.put (table, externalId) id }

def Constants.ofTable (values : Table String Json) : Constants := fun id => .ok (values.get? id)

def TableTypes.ofRegistry (r : Registry) : TableTypes := fun table => .ok (r.typeName? table)

namespace Audit

/-- Sets a property if the object has it. -/
def stamp (r : Registry) (h : Handle) (property : String) (v : PropertyValue) : Action Unit :=
  Action.changeHeap fun heap =>
    if r.hasProperty (heap.get h).typeName property then r.setProperty heap h property v
    else .ok heap

/-- Stamps objects with a time and a user: when they are new, and whenever they are written. -/
def stamps (r : Registry) (user : String) (now : Calendar.DateTime) : Audit := fun h isNew => do
  if isNew then
    stamp r h "created" (.dateTime now)
    stamp r h "created_by" (.text user)
  stamp r h "updated" (.dateTime now)
  stamp r h "updated_by" (.text user)

end Audit

end Fieldwise
