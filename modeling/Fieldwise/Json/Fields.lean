import Fieldwise.Json.Reader

/-!
Reading data of a known shape from a JSON document. The fields of a record are given by name, each
at most once and with members of other names skipped, or by position. What is skipped is never
given a value, so nothing in it can be wrong.
-/

namespace Fieldwise.Json.Node

/-- What is given for each known name, in the order of the names. -/
def fields? (known : List String) : Node → Option (List (Option Node))
  | .array items =>
    if items.length ≤ known.length then
      some (items.map some ++ List.replicate (known.length - items.length) none)
    else none
  | .object members => do
    let named ← members.mapM fun member => (textOf? member.1).map (·, member.2)
    if known.any fun name => 1 < (named.map Prod.fst).count name then none
    else some (known.map fun name => Table.get? name named)
  | _ => none

def text? : Node → Option String
  | .text parts => textOf? parts
  | _ => none

def boolean? : Node → Option Bool
  | .boolean b => some b
  | _ => none

def natBelow? (bound : Nat) : Node → Option Nat
  | .number n => n.integer?.bind fun i => if 0 ≤ i ∧ i < bound then some i.toNat else none
  | _ => none

def list? {α : Type} (item? : Node → Option α) : Node → Option (List α)
  | .array items => items.mapM item?
  | _ => none

def optional? {α : Type} (value? : Node → Option α) : Node → Option (Option α)
  | .null => some none
  | node => (value? node).map some

/-- A field that may be left out. -/
def orDefault? {α : Type} (default : α) (value? : Node → Option α) : Option Node → Option α
  | none => some default
  | some node => value? node

end Fieldwise.Json.Node
