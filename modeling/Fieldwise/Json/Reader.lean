import Fieldwise.Json.Basic
import Fieldwise.Json.Float
import Fieldwise.Json.Node

/-!
Values of JSON documents. An integer between `-2 ^ 63` and `2 ^ 64 - 1` stays an integer; any other
number is a floating-point number, and one that is too large for that has no value, as has a text
with half a surrogate pair. A name that is repeated in an object keeps its first place and its last
value.
-/

namespace Fieldwise.Json

/-- The characters that a text writes; escaped units in pairs make one character. -/
def charsOf? : List TextPart → Option (List Char)
  | [] => some []
  | .char c :: rest => (charsOf? rest).map (c :: ·)
  | .unit n :: rest =>
    if n < 0xD800 || 0xDFFF < n then (charsOf? rest).map (Char.ofNat n :: ·)
    else
      match rest with
      | .unit low :: rest =>
        if n < 0xDC00 && 0xDC00 ≤ low && low ≤ 0xDFFF then
          (charsOf? rest).map (Char.ofNat (0x10000 + (n - 0xD800) * 0x400 + (low - 0xDC00)) :: ·)
        else none
      | _ => none

def textOf? (parts : List TextPart) : Option String :=
  (charsOf? parts).map String.ofList

/-- The integer that a numeral writes, if it has the form of one and is not a negative zero. -/
def Numeral.integer? (n : Numeral) : Option Int :=
  if n.fraction.isEmpty && n.exponent.isNone then
    let m := Text.numeralValue n.whole
    if n.negative then if m = 0 then none else some (-m) else some m
  else none

def Numeral.value? (n : Numeral) : Option Number :=
  match n.integer? with
  | some i =>
    if -2 ^ 63 ≤ i ∧ i < 2 ^ 64 then some (.integer i) else n.float?.map .float
  | none => n.float?.map .float

mutual

/-- The value of a document that is nested `depth` deep at most. -/
def Node.toJson? (depth : Nat) : Node → Option Json
  | .null => some .null
  | .boolean b => some (.boolean b)
  | .number n => n.value?.map .number
  | .text parts => (textOf? parts).map .text
  | .array items =>
    match depth with
    | 0 => none
    | depth + 1 => (itemsToJson? depth items).map .array
  | .object members =>
    match depth with
    | 0 => none
    | depth + 1 => (membersToJson? depth members).map fun fields => .object (Table.ofList fields)

def itemsToJson? (depth : Nat) : List Node → Option (List Json)
  | [] => some []
  | node :: rest => do
    let value ← node.toJson? depth
    pure (value :: (← itemsToJson? depth rest))

def membersToJson? (depth : Nat) : List (List TextPart × Node) → Option (List (String × Json))
  | [] => some []
  | (name, node) :: rest => do
    let name ← textOf? name
    let value ← node.toJson? depth
    pure ((name, value) :: (← membersToJson? depth rest))

end

/-- Arrays and objects may be nested this deep. -/
def maxDepth : Nat := 127

def ofText? (s : String) : Option Json := do
  (← Node.ofText? s).toJson? maxDepth

end Fieldwise.Json
