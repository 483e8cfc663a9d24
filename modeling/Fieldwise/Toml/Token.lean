import Fieldwise.Json.Reader

/-!
TOML text as a row of tokens. Comments are dropped. White space and line ends are kept, because
what a line means depends on them. As with JSON, one character at a time moves the scanner.
-/

namespace Fieldwise.Toml

inductive Token
  /-- One of `=`, `.`, `,` and the brackets. -/
  | mark (c : Char)
  | blank (run : List Char)
  | newline
  /-- Any other run of characters. -/
  | word (letters : List Char)
  | text (multiline : Bool) (s : String)
deriving DecidableEq

def isSpace (c : Char) : Bool := c == ' ' || c == '\t'

def isMark (c : Char) : Bool :=
  c == '=' || c == '.' || c == ',' || c == '[' || c == ']' || c == '\x7b' || c == '\x7d'

def isQuote (c : Char) : Bool := c == '"' || c == '\x27'

/-- Control characters other than the tab stand nowhere but in line ends. -/
def isPlain (c : Char) : Bool := c == '\t' || (0x20 ≤ c.toNat && c != '\x7f')

def isWordChar (c : Char) : Bool :=
  isPlain c && !isSpace c && !isMark c && !isQuote c && c != '#'

/-- The character that a backslash and `c` write, where no number follows. -/
def shortEscape? (c : Char) : Option Char :=
  match c with
  | '"' | '\\' => some c
  | 'b' => some '\x08'
  | 't' => some '\t'
  | 'n' => some '\n'
  | 'f' => some '\x0c'
  | 'r' => some '\r'
  | _ => none

def numberedChar? (n : Nat) : Option Char :=
  if n < 0xD800 ∨ (0xDFFF < n ∧ n < 0x110000) then some (Char.ofNat n) else none

namespace Scanner

/-- Inside what the scanner is. Characters are collected back to front. A carriage return is half
of a line end, and the other half must follow. -/
inductive Mode
  | between
  | blank (run : List Char)
  | word (letters : List Char)
  | comment
  | halfLineEnd
  /-- One or two quotes have been seen, and nothing after them. -/
  | opening (quote : Char) (seen : Nat)
  /-- Just inside a text of many lines, where a line end does not count. -/
  | first (quote : Char)
  | body (quote : Char) (multiline : Bool) (letters : List Char)
  /-- `kept` is what there is when the line end is complete. -/
  | halfInBody (quote : Char) (kept : List Char)
  /-- After quotes in a text of many lines. Three end it, and up to two before them belong to it. -/
  | quotes (quote : Char) (letters : List Char) (seen : Nat)
  | escape (multiline : Bool) (letters : List Char)
  /-- `left + 1` hexadecimal digits of the number of a character are missing. -/
  | number (multiline : Bool) (letters : List Char) (left value : Nat)
  /-- White space after a backslash; it does not count once a line has ended. -/
  | lineGap (letters : List Char) (lineEnded : Bool)
  | halfLineGap (letters : List Char)
deriving DecidableEq

end Scanner

/-- The tokens found, back to front, and the one being read. -/
structure Scanner where
  found : List Token
  mode : Scanner.Mode

namespace Scanner

open Mode

def emit (s : Scanner) (t : Token) : Scanner := ⟨t :: s.found, between⟩

def enter (s : Scanner) (mode : Mode) : Scanner := { s with mode }

def begin? (s : Scanner) (c : Char) : Option Scanner :=
  if c = '\n' then some (s.emit .newline)
  else if c = '\r' then some (s.enter halfLineEnd)
  else if c = '#' then some (s.enter comment)
  else if isQuote c then some (s.enter (opening c 1))
  else if isMark c then some (s.emit (.mark c))
  else if isSpace c then some (s.enter (blank [c]))
  else if isWordChar c then some (s.enter (word [c]))
  else none

def stepBody? (s : Scanner) (quote : Char) (multiline : Bool) (letters : List Char) (c : Char) :
    Option Scanner :=
  if c = quote then
    if multiline then some (s.enter (quotes quote letters 1))
    else some (s.emit (.text false (String.ofList letters.reverse)))
  else if c = '\\' && quote == '"' then some (s.enter (escape multiline letters))
  else if c = '\n' && multiline then some (s.enter (body quote true ('\n' :: letters)))
  else if c = '\r' && multiline then some (s.enter (halfInBody quote ('\n' :: letters)))
  else if isPlain c then some (s.enter (body quote multiline (c :: letters)))
  else none

def stepEscape? (s : Scanner) (multiline : Bool) (letters : List Char) (c : Char) :
    Option Scanner :=
  if c = 'u' then some (s.enter (number multiline letters 3 0))
  else if c = 'U' then some (s.enter (number multiline letters 7 0))
  else if multiline && isSpace c then some (s.enter (lineGap letters false))
  else if multiline && c == '\n' then some (s.enter (lineGap letters true))
  else if multiline && c == '\r' then some (s.enter (halfLineGap letters))
  else (shortEscape? c).map fun x => s.enter (body '"' multiline (x :: letters))

def stepNumber? (s : Scanner) (multiline : Bool) (letters : List Char) (left value : Nat)
    (c : Char) : Option Scanner := do
  let value := 16 * value + (← Json.Scanner.hexValue? c)
  match left with
  | 0 => pure (s.enter (body '"' multiline ((← numberedChar? value) :: letters)))
  | left + 1 => pure (s.enter (number multiline letters left value))

/-- A text of many lines, of whose closing quotes the first `seen - 3` belong to it. -/
def linesToken (quote : Char) (letters : List Char) (seen : Nat) : Token :=
  .text true (String.ofList (List.replicate (seen - 3) quote ++ letters).reverse)

def step (s : Scanner) (c : Char) : Option Scanner :=
  match s.mode with
  | between => s.begin? c
  | blank run =>
    if isSpace c then some (s.enter (blank (c :: run))) else (s.emit (.blank run)).begin? c
  | word letters =>
    if isWordChar c then some (s.enter (word (c :: letters)))
    else (s.emit (.word letters.reverse)).begin? c
  | comment =>
    if c = '\n' || c = '\r' then s.begin? c else if isPlain c then some s else none
  | halfLineEnd => if c = '\n' then some (s.emit .newline) else none
  | opening quote seen =>
    if c = quote then
      if seen = 1 then some (s.enter (opening quote 2)) else some (s.enter (first quote))
    else if seen = 1 then s.stepBody? quote false [] c
    else (s.emit (.text false "")).begin? c
  | first quote =>
    if c = '\n' then some (s.enter (body quote true []))
    else if c = '\r' then some (s.enter (halfInBody quote []))
    else s.stepBody? quote true [] c
  | body quote multiline letters => s.stepBody? quote multiline letters c
  | halfInBody quote kept => if c = '\n' then some (s.enter (body quote true kept)) else none
  | quotes quote letters seen =>
    if c = quote && seen < 5 then some (s.enter (quotes quote letters (seen + 1)))
    else if 3 ≤ seen then (s.emit (linesToken quote letters seen)).begin? c
    else s.stepBody? quote true (List.replicate seen quote ++ letters) c
  | escape multiline letters => s.stepEscape? multiline letters c
  | number multiline letters left value => s.stepNumber? multiline letters left value c
  | lineGap letters lineEnded =>
    if isSpace c then some s
    else if c = '\n' then some (s.enter (lineGap letters true))
    else if c = '\r' then some (s.enter (halfLineGap letters))
    else if lineEnded then s.stepBody? '"' true letters c
    else none
  | halfLineGap letters => if c = '\n' then some (s.enter (lineGap letters true)) else none

/-- The tokens in order, if the text may end here. -/
def finish? (s : Scanner) : Option (List Token) :=
  match s.mode with
  | between | comment => some s.found.reverse
  | blank run => some (Token.blank run :: s.found).reverse
  | word letters => some (Token.word letters.reverse :: s.found).reverse
  | opening _ 2 => some (Token.text false "" :: s.found).reverse
  | quotes quote letters seen =>
    if 3 ≤ seen then some (linesToken quote letters seen :: s.found).reverse else none
  | _ => none

end Scanner

def tokens? (s : String) : Option (List Token) := do
  let cs := match s.toList with
    | '\ufeff' :: rest => rest
    | cs => cs
  (← cs.foldlM Scanner.step ⟨[], .between⟩).finish?

end Fieldwise.Toml
