import Fieldwise.Json.Basic
import Fieldwise.Text.Basic

/-!
Paths into JSON documents. A path is written as an optional `$` and steps `.name`, `['name']`,
`["name"]` or `[0]`; the dot of a first name may be left out when there is no `$`. The reader is
moved by one character at a time, and reading a path folds the step over its text.
-/

namespace Fieldwise.Json

inductive Step
  | key (name : String)
  | index (i : Nat)
deriving DecidableEq

/-- The steps of a path and the text they were read from, without surrounding white space. -/
structure Path where
  text : String
  steps : List Step
deriving DecidableEq

/-- Why a text is not a path. -/
inductive PathFault
  | unexpected (c : Char)
  | unexpectedInName (c : Char)
  | emptyName
  | openBracket
  | openQuote
  | afterQuote
  | openIndex
  | badIndex (written : String)
deriving DecidableEq

def PathFault.message : PathFault → String
  | unexpected c => s!"unexpected character '{c}'"
  | unexpectedInName c => s!"unexpected character '{c}' in member name"
  | emptyName => "empty member name"
  | openBracket => "unterminated bracket"
  | openQuote => "unterminated quoted member"
  | afterQuote => "expected ']' after quoted member"
  | openIndex => "unterminated index"
  | badIndex written => s!"invalid index '{written}'"

namespace PathReader

/-- Inside what the reader is. Names and indexes are collected back to front. -/
inductive Mode
  | start
  | between
  | name (letters : List Char)
  | bracket
  | quoted (quote : Char) (letters : List Char)
  | afterQuote (name : String)
  | index (digits : List Char)
deriving DecidableEq

end PathReader

/-- The steps found, back to front, and what is being read. -/
structure PathReader where
  found : List Step
  mode : PathReader.Mode

namespace PathReader

open Mode

def addStep (r : PathReader) (s : Step) : PathReader := ⟨s :: r.found, between⟩

def beginStep (r : PathReader) (c : Char) : Except PathFault PathReader :=
  if c = '.' then .ok { r with mode := name [] }
  else if c = '[' then .ok { r with mode := bracket }
  else .error (.unexpected c)

/-- The name read so far becomes a step. -/
def endName (r : PathReader) (letters : List Char) : Except PathFault PathReader :=
  if letters.isEmpty then .error .emptyName
  else .ok (r.addStep (.key (String.ofList letters.reverse)))

def continueName (r : PathReader) (letters : List Char) (c : Char) :
    Except PathFault PathReader :=
  if c = '.' || c = '[' then do (← r.endName letters).beginStep c
  else if Text.isBlankChar c || c = ']' then .error (.unexpectedInName c)
  else .ok { r with mode := name (c :: letters) }

/-- An index is a numeral below `2 ^ 64`, with white space around it. -/
def endIndex (r : PathReader) (digits : List Char) : Except PathFault PathReader :=
  match (Text.naturalOf? (Text.trimChars digits.reverse)).filter (· < 2 ^ 64) with
  | some i => .ok (r.addStep (.index i))
  | none => .error (.badIndex (String.ofList digits.reverse))

def continueIndex (r : PathReader) (digits : List Char) (c : Char) :
    Except PathFault PathReader :=
  if c = ']' then r.endIndex digits else .ok { r with mode := index (c :: digits) }

def step (r : PathReader) (c : Char) : Except PathFault PathReader :=
  match r.mode with
  | start =>
    if c = '$' then .ok { r with mode := between }
    else if c = '.' || c = '[' then r.beginStep c
    else r.continueName [] c
  | between => r.beginStep c
  | name letters => r.continueName letters c
  | bracket =>
    if c = '\x27' || c = '"' then .ok { r with mode := quoted c [] } else r.continueIndex [] c
  | quoted quote letters =>
    if c = quote then .ok { r with mode := afterQuote (String.ofList letters.reverse) }
    else .ok { r with mode := quoted quote (c :: letters) }
  | afterQuote key => if c = ']' then .ok (r.addStep (.key key)) else .error .afterQuote
  | index digits => r.continueIndex digits c

def finish (r : PathReader) : Except PathFault (List Step) :=
  match r.mode with
  | start | between => .ok r.found.reverse
  | name letters => do pure (← r.endName letters).found.reverse
  | bracket => .error .openBracket
  | quoted _ _ => .error .openQuote
  | afterQuote _ => .error .afterQuote
  | index _ => .error .openIndex

end PathReader

def stepsOfChars (cs : List Char) : Except PathFault (List Step) := do
  (← cs.foldlM PathReader.step ⟨[], .start⟩).finish

namespace Path

def ofText (s : String) : Except PathFault Path := do
  let text := Text.trim s
  pure ⟨text, ← stepsOfChars text.toList⟩

/-- A path without steps leads to the whole document. -/
def isRoot (p : Path) : Bool := p.steps.isEmpty

end Path

def follow? (v : Json) : Step → Option Json
  | .key name =>
    match v with
    | object fields => Table.get? name fields
    | _ => none
  | .index i =>
    match v with
    | array items => items[i]?
    | _ => none

def Path.find? (p : Path) (document : Json) : Option Json :=
  p.steps.foldlM follow? document

end Fieldwise.Json
