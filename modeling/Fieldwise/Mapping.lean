import Fieldwise.Text.Basic

/-!
The ways in which a field of a record can be fed. A kind is recognised without regard to letter
case, white space, hyphens and underscores; any other text is kept as an unknown kind.
-/

namespace Fieldwise

inductive MappingKind
  | direct
  | constant
  | computedConstant
  | reference
  | custom
  | path
  | unknown (written : String)
deriving DecidableEq

namespace MappingKind

/-- The known kinds in the order in which they are listed. -/
def known : List MappingKind := [direct, constant, computedConstant, reference, custom, path]

def name : MappingKind → String
  | direct => "Direct"
  | constant => "ConstantValue"
  | computedConstant => "ComputedConstant"
  | reference => "EntityReference"
  | custom => "CustomMapping"
  | path => "PathExtraction"
  | unknown written => written

/-- What counts when two written kinds are compared. -/
def letters (cs : List Char) : List Char :=
  (cs.filter fun c => c != '_' && c != '-' && !Text.isBlankChar c).map Char.toLower

def ofText (s : String) : MappingKind :=
  match known.find? fun kind => letters kind.name.toList == letters s.toList with
  | some kind => kind
  | none => unknown s

def isKnown : MappingKind → Bool
  | unknown _ => false
  | _ => true

/-- Both kinds of constant behave alike. -/
def isConstant : MappingKind → Bool
  | constant | computedConstant => true
  | _ => false

/-- Nothing is ever written through a field of such a kind. -/
def isReadOnly (kind : MappingKind) : Bool := kind.isConstant || kind == path

theorem ofText_name {kind : MappingKind} (h : kind.isKnown) : ofText kind.name = kind := by
  cases kind with
  | unknown => contradiction
  | _ => decide

end MappingKind

end Fieldwise
