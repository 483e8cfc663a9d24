import Fieldwise.Error
import Fieldwise.Heap
import Fieldwise.PropertyType

/-!
Types of business objects: a name, the table that the objects are stored in and the accessors of
the properties. An accessor reads and writes one property of one object.
-/

namespace Fieldwise

structure Accessor where
  name : String
  type : PropertyType
  get : BusinessObject → Except Error PropertyValue
  /-- There is none if the property cannot be written. -/
  set? : Option (PropertyValue → BusinessObject → Except Error BusinessObject)

def Accessor.set (a : Accessor) (v : PropertyValue) (o : BusinessObject) :
    Except Error BusinessObject :=
  match a.set? with
  | some set => set v o
  | none => .error (.propertyAccess o.typeName a.name "property is read-only")

def Accessor.isWritable (a : Accessor) : Bool := a.set?.isSome

structure EntityType where
  name : String
  table : String
  /-- Written objects get stamps. -/
  auditable : Bool
  /-- A new object. -/
  create : BusinessObject
  accessors : Table String Accessor

namespace EntityType

def accessor? (t : EntityType) (property : String) : Option Accessor := t.accessors.get? property

def has (t : EntityType) (property : String) : Bool := t.accessors.has property

def sortedAccessors (t : EntityType) : List Accessor :=
  (t.accessors.map Prod.snd).mergeSort fun a b => !(b.name < a.name : Bool)

end EntityType

end Fieldwise
