import Fieldwise.Toml.Scalar

/-!
Reading TOML documents. The number of tokens bounds the reader: each step uses up one at least.
-/

namespace Fieldwise.Toml

/-- Arrays and braces nested this deep, and keys of so many parts, are refused. -/
def limit : Nat := 80

def skipBlank : List Token → List Token
  | .blank _ :: rest => rest
  | ts => ts

def skipLines (ts : List Token) : List Token :=
  ts.dropWhile fun
    | .blank _ | .newline => true
    | _ => false

def isKeyChar (c : Char) : Bool := c.isAlphanum || c == '_' || c == '-'

def key? : Nat → List Token → Option (List String × List Token)
  | 0, _ => none
  | fuel + 1, ts => do
    let (part, rest) ← match ts with
      | .text false s :: rest => some (s, rest)
      | .word letters :: rest =>
        if letters.all isKeyChar then some (String.ofList letters, rest) else none
      | _ => none
    match skipBlank rest with
    | .mark '.' :: rest => do
      let (parts, rest) ← key? fuel (skipBlank rest)
      pure (part :: parts, rest)
    | _ => pure ([part], rest)

/-- The parts of a dotted key that is short enough. -/
def path? (fuel : Nat) (ts : List Token) : Option (List String × List Token) :=
  (key? fuel ts).filter fun found => found.1.length < limit

/-- The characters of words and points at the front. -/
def atom : List Token → List Char × List Token
  | .word letters :: rest => (letters ++ (atom rest).1, (atom rest).2)
  | .mark '.' :: rest => ('.' :: (atom rest).1, (atom rest).2)
  | ts => ([], ts)

/-- A value without quotes or brackets. One space may stand between a date and a time of day. -/
def bare? (ts : List Token) : Option (Toml × List Token) := do
  let (cs, rest) := atom ts
  match afterDate? cs, rest with
  | some [], .blank [' '] :: next =>
    let (clock, left) := atom next
    if clock.head?.any Char.isDigit then pure (← scalar? (cs ++ ' ' :: clock), left)
    else pure (time cs, rest)
  | _, _ => pure (← scalar? cs, rest)

mutual

def value? : Nat → List Token → Option (Toml × List Token)
  | 0, _ => none
  | fuel + 1, ts =>
    match ts with
    | .text _ s :: rest => some (text s, rest)
    | .mark '[' :: rest => do
      let (items, rest) ← items? fuel (skipLines rest)
      pure (array items, rest)
    | .mark '\x7b' :: rest =>
      match skipBlank rest with
      | .mark '\x7d' :: rest => some (table .closed [], rest)
      | rest => pairs? fuel [] rest
    | _ => bare? ts

def items? : Nat → List Token → Option (List Toml × List Token)
  | 0, _ => none
  | _ + 1, .mark ']' :: rest => some ([], rest)
  | fuel + 1, ts => do
    let (item, rest) ← value? fuel ts
    match skipLines rest with
    | .mark ']' :: rest => pure ([item], rest)
    | .mark ',' :: rest => do
      let (items, rest) ← items? fuel (skipLines rest)
      pure (item :: items, rest)
    | _ => none

def pairs? : Nat → Entries → List Token → Option (Toml × List Token)
  | 0, _, _ => none
  | fuel + 1, entries, ts => do
    let (path, rest) ← path? fuel ts
    match skipBlank rest with
    | .mark '=' :: rest => do
      let (value, rest) ← value? fuel (skipBlank rest)
      let (_, entries) ← addPair? path value .closed entries
      match skipBlank rest with
      | .mark '\x7d' :: rest => pure (table .closed entries, rest)
      | .mark ',' :: rest => pairs? fuel entries (skipBlank rest)
      | _ => none
    | _ => none

end

/-- The document so far and the path of the table that pairs are added to. -/
structure Document where
  entries : Entries
  path : List String

namespace Document

def change? (d : Document) (path : List String)
    (change? : Standing → Entries → Option (Standing × Entries)) : Option Document := do
  pure { d with entries := (← update? false change? path .header d.entries).2 }

def addPair? (d : Document) (path : List String) (value : Toml) : Option Document :=
  d.change? d.path (Toml.addPair? path value)

def openTable? (d : Document) (path : List String) : Option Document := do
  pure { ← d.change? path.dropLast (Toml.openTable? (← path.getLast?)) with path }

def openRow? (d : Document) (path : List String) : Option Document := do
  pure { ← d.change? path.dropLast (Toml.openRow? (← path.getLast?)) with path }

/-- What one line does, from its first token that is not blank. -/
def line? (fuel : Nat) (d : Document) : List Token → Option (Document × List Token)
  | .mark '[' :: .mark '[' :: rest => do
    let (path, rest) ← path? fuel (skipBlank rest)
    match skipBlank rest with
    | .mark ']' :: .mark ']' :: rest => pure (← d.openRow? path, rest)
    | _ => none
  | .mark '[' :: rest => do
    let (path, rest) ← path? fuel (skipBlank rest)
    match skipBlank rest with
    | .mark ']' :: rest => pure (← d.openTable? path, rest)
    | _ => none
  | ts => do
    let (path, rest) ← path? fuel ts
    match skipBlank rest with
    | .mark '=' :: rest => do
      let (value, rest) ← value? fuel (skipBlank rest)
      pure (← d.addPair? path value, rest)
    | _ => none

def lines? : Nat → Document → List Token → Option Document
  | 0, _, _ => none
  | fuel + 1, d, ts =>
    match skipLines ts with
    | [] => some d
    | ts => do
      let (d, rest) ← d.line? fuel ts
      match skipBlank rest with
      | [] => pure d
      | .newline :: rest => lines? fuel d rest
      | _ => none

end Document

/-- How deep brackets are nested, and the deepest so far. -/
def nesting (depth : Nat × Nat) : Token → Nat × Nat
  | .mark '[' | .mark '\x7b' => (depth.1 + 1, max depth.2 (depth.1 + 1))
  | .mark ']' | .mark '\x7d' => (depth.1 - 1, depth.2)
  | _ => depth

def ofText? (s : String) : Option Entries := do
  let tokens ← tokens? s
  if limit ≤ (tokens.foldl nesting (0, 0)).2 then none
  let fuel := tokens.length + 1
  pure (← Document.lines? fuel ⟨[], []⟩ tokens).entries

end Fieldwise.Toml
