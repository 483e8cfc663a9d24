import Fieldwise.Json.Token

/-!
A JSON document as written: nested, but with numbers and texts still unread, and with every member
of an object, repeated names included. The builder takes one token at a time and keeps the open
arrays and objects on a stack, so that no depth is too deep for it.
-/

namespace Fieldwise.Json

inductive Node
  | null
  | boolean (b : Bool)
  | number (n : Numeral)
  | text (parts : List TextPart)
  | array (items : List Node)
  | object (members : List (List TextPart × Node))

namespace Builder

/-- An open array or object whose next value is being built. Parts are back to front. -/
inductive Frame
  | array (items : List Node)
  | object (members : List (List TextPart × Node)) (name : List TextPart)

/-- What may come next. -/
inductive Stand
  | value
  /-- The first item, or the end of the array. -/
  | firstItem
  | afterItem (items : List Node)
  /-- A name, or the end of the object if that is allowed. -/
  | name (members : List (List TextPart × Node)) (mayEnd : Bool)
  | colon (members : List (List TextPart × Node)) (name : List TextPart)
  | afterMember (members : List (List TextPart × Node))
  | finished (node : Node)

end Builder

structure Builder where
  frames : List Builder.Frame
  stand : Builder.Stand

namespace Builder

def start : Builder := ⟨[], .value⟩

/-- Hands a finished value to the innermost open frame. -/
def complete (node : Node) : List Frame → Builder
  | [] => ⟨[], .finished node⟩
  | .array items :: frames => ⟨frames, .afterItem (node :: items)⟩
  | .object members name :: frames => ⟨frames, .afterMember ((name, node) :: members)⟩

def beginValue? (frames : List Frame) : Token → Option Builder
  | .null => some (complete .null frames)
  | .boolean b => some (complete (.boolean b) frames)
  | .number n => some (complete (.number n) frames)
  | .text parts => some (complete (.text parts) frames)
  | .opening .array => some ⟨frames, .firstItem⟩
  | .opening .object => some ⟨frames, .name [] true⟩
  | _ => none

def step (b : Builder) (t : Token) : Option Builder :=
  match b.stand, t with
  | .value, t => beginValue? b.frames t
  | .firstItem, .closing .array => some (complete (.array []) b.frames)
  | .firstItem, t => beginValue? (.array [] :: b.frames) t
  | .afterItem items, .comma => some ⟨.array items :: b.frames, .value⟩
  | .afterItem items, .closing .array => some (complete (.array items.reverse) b.frames)
  | .name members _, .text parts => some { b with stand := .colon members parts }
  | .name _ true, .closing .object => some (complete (.object []) b.frames)
  | .colon members name, .colon => some ⟨.object members name :: b.frames, .value⟩
  | .afterMember members, .comma => some { b with stand := .name members false }
  | .afterMember members, .closing .object => some (complete (.object members.reverse) b.frames)
  | _, _ => none

def finish? (b : Builder) : Option Node :=
  match b.stand with
  | .finished node => some node
  | _ => none

end Builder

namespace Node

def ofTokens? (tokens : List Token) : Option Node := do
  (← tokens.foldlM Builder.step Builder.start).finish?

def ofText? (s : String) : Option Node := do
  ofTokens? (← tokens? s.toList)

end Node

end Fieldwise.Json
