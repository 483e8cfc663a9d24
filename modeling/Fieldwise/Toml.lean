import Fieldwise.Table

/-!
TOML values. A table remembers how it came about, because that decides what may still be added to
it. Numbers that are no integers, and points in time, keep their written form.
-/

namespace Fieldwise

namespace Toml

/-- How a table came about. -/
inductive Standing
  /-- By a header of its own; the document itself counts as such. -/
  | header
  /-- As part of the path in a header. -/
  | implied
  /-- As part of a dotted key. -/
  | dotted
  /-- Between braces; nothing can be added to it. -/
  | closed
deriving DecidableEq

/-- Dotted keys may go on into such a table. -/
def Standing.isOpen : Standing → Bool
  | implied | dotted => true
  | header | closed => false

end Toml

inductive Toml
  | text (s : String)
  | boolean (b : Bool)
  | integer (i : Int)
  | float (written : List Char)
  | time (written : List Char)
  | array (items : List Toml)
  | table (standing : Toml.Standing) (entries : List (String × Toml))
  /-- Tables with one header each, in order. -/
  | tables (rows : List (List (String × Toml)))

namespace Toml

abbrev Entries := Table String Toml

/-- Changes the table at the end of a path, making the tables on the way if they are not there. A
path in a header goes into the last of several tables; one in a dotted key only into open ones. -/
def update? (inKey : Bool) (change? : Standing → Entries → Option (Standing × Entries)) :
    List String → Standing → Entries → Option (Standing × Entries)
  | [], standing, entries => change? standing entries
  | key :: path, standing, entries => do
    let value ← match entries.get? key with
      | none => do
        let (s, es) ← update? inKey change? path (if inKey then .dotted else .implied) []
        pure (table s es)
      | some (table .closed _) => none
      | some (table s es) => do
        if inKey && !s.isOpen then none
        let (s, es) ← update? inKey change? path s es
        pure (table s es)
      | some (tables rows) => do
        let (_, es) ← update? inKey change? path .header (← rows.getLast?)
        pure (tables (rows.dropLast ++ [es]))
      | some _ => none
    pure (standing, entries.put key value)

/-- Adds an entry where there is none, to a table that came about in the same manner. -/
def addValue? (byDots : Bool) (key : String) (value : Toml) (standing : Standing)
    (entries : Entries) : Option (Standing × Entries) :=
  if byDots != (standing == .dotted) || entries.has key then none
  else some (standing, entries.put key value)

/-- Opens a table by its header; one that is only implied so far may be opened. -/
def openTable? (key : String) (standing : Standing) (entries : Entries) :
    Option (Standing × Entries) :=
  match entries.get? key with
  | none => some (standing, entries.put key (table .header []))
  | some (table .implied es) => some (standing, entries.put key (table .header es))
  | some _ => none

/-- Opens one more of several tables. -/
def openRow? (key : String) (standing : Standing) (entries : Entries) :
    Option (Standing × Entries) :=
  match entries.get? key with
  | none => some (standing, entries.put key (tables [[]]))
  | some (tables rows) => some (standing, entries.put key (tables (rows ++ [[]])))
  | some _ => none

/-- Sets a dotted key, seen from a table, to a value. -/
def addPair? (path : List String) (value : Toml) (standing : Standing) (entries : Entries) :
    Option (Standing × Entries) := do
  let key ← path.getLast?
  let way := path.dropLast
  update? true (addValue? (!way.isEmpty) key value) way standing entries

end Toml

end Fieldwise
