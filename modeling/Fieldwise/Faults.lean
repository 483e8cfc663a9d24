import Fieldwise.Memory

/-!
Collaborators that fail on demand, to see what becomes of a conversion when others fail.
-/

namespace Fieldwise

/-- Which calls fail: all of a kind, or those about the listed ids. -/
structure Faults where
  save : Bool := false
  audit : Bool := false
  load : List String := []
  resolve : List String := []
  bind : List String := []
  constant : List String := []
deriving DecidableEq

namespace Faults

def refuse (fails : Bool) (reason : String) : Except Error Unit :=
  if fails then .error (.internal reason) else .ok ()

def persistence (f : Faults) (p : Persistence) : Persistence where
  load typeName id w := do
    refuse (f.load.contains id) s!"load of {typeName} {id} failed"
    p.load typeName id w
  save h := do
    Action.lift (refuse f.save "save failed")
    p.save h

def externalIds (f : Faults) (ids : ExternalIds) : ExternalIds where
  resolve table externalId w := do
    refuse (f.resolve.contains externalId) s!"lookup of {table} {externalId} failed"
    ids.resolve table externalId w
  bind table externalId id := do
    Action.lift (refuse (f.bind.contains externalId) s!"bind of {table} {externalId} failed")
    ids.bind table externalId id

def constants (f : Faults) (constants : Constants) : Constants := fun id => do
  refuse (f.constant.contains id) s!"constant {id} failed"
  constants id

def hook (f : Faults) (audit : Audit) : Audit := fun h isNew => do
  Action.lift (refuse f.audit s!"audit failed, new={isNew}")
  audit h isNew

end Faults

end Fieldwise
