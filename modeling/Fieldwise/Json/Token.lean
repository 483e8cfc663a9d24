import Fieldwise.Text.Numeral

/-!
JSON text as a row of tokens. The scanner is moved by one character at a time: `Scanner.step` is
its whole behaviour, and scanning a text folds the step over it. Numbers and texts are kept as they
are written, so that what a reader skips over is never given a value.
-/

namespace Fieldwise.Json

/-- A number as written. A fraction is absent exactly if it has no digits. -/
structure Numeral where
  negative : Bool
  whole : List Char
  fraction : List Char
  /-- Whether the exponent is negative, and its digits. -/
  exponent : Option (Bool × List Char)
deriving DecidableEq

/-- A character of a text as written: itself, or a 16-bit unit in hexadecimal. -/
inductive TextPart
  | char (c : Char)
  | unit (n : Nat)
deriving DecidableEq

inductive Bracket
  | array
  | object
deriving DecidableEq

inductive Token
  | opening (b : Bracket)
  | closing (b : Bracket)
  | colon
  | comma
  | null
  | boolean (b : Bool)
  | number (n : Numeral)
  | text (parts : List TextPart)
deriving DecidableEq

namespace Scanner

/-- How far a number has been read. -/
inductive NumberStage
  | sign
  | zero
  | whole
  | point
  | fraction
  | mark
  | markSign
  | exponent
deriving DecidableEq

inductive Escape
  | none
  | backslash
  /-- `left + 1` hexadecimal digits are missing. -/
  | hex (left unit : Nat)
deriving DecidableEq

/-- Inside which token the scanner is. Digits and text parts are collected back to front. -/
inductive Mode
  | between
  | word (left : List Char) (token : Token)
  | number (stage : NumberStage) (n : Numeral)
  | text (parts : List TextPart) (escape : Escape)
deriving DecidableEq

end Scanner

/-- The tokens found, back to front, and the one being read. -/
structure Scanner where
  found : List Token
  mode : Scanner.Mode

namespace Scanner

open Mode NumberStage

def start : Scanner := ⟨[], between⟩

def emit (s : Scanner) (t : Token) : Scanner := ⟨t :: s.found, between⟩

def isSpace (c : Char) : Bool := c == ' ' || c == '\t' || c == '\n' || c == '\r'

def begin? (s : Scanner) (c : Char) : Option Scanner :=
  if isSpace c then some { s with mode := between }
  else if c = '[' then some (s.emit (.opening .array))
  else if c = ']' then some (s.emit (.closing .array))
  else if c = '\x7b' then some (s.emit (.opening .object))
  else if c = '\x7d' then some (s.emit (.closing .object))
  else if c = ':' then some (s.emit .colon)
  else if c = ',' then some (s.emit .comma)
  else if c = '"' then some { s with mode := text [] .none }
  else if c = '-' then some { s with mode := number sign ⟨true, [], [], none⟩ }
  else if c = '0' then some { s with mode := number zero ⟨false, ['0'], [], none⟩ }
  else if c.isDigit then some { s with mode := number whole ⟨false, [c], [], none⟩ }
  else if c = 'n' then some { s with mode := word ['u', 'l', 'l'] .null }
  else if c = 't' then some { s with mode := word ['r', 'u', 'e'] (.boolean true) }
  else if c = 'f' then some { s with mode := word ['a', 'l', 's', 'e'] (.boolean false) }
  else none

/-- Puts digits that were collected back to front in order. -/
def finishNumeral (n : Numeral) : Numeral :=
  { n with whole := n.whole.reverse, fraction := n.fraction.reverse,
           exponent := n.exponent.map fun e => (e.1, e.2.reverse) }

def NumberStage.isComplete : NumberStage → Bool
  | zero | whole | fraction | exponent => true
  | _ => false

/-- The stage and digits after one more character of a number, if the number goes on with it. -/
def continueNumber? (stage : NumberStage) (n : Numeral) (c : Char) :
    Option (NumberStage × Numeral) :=
  let addWhole := { n with whole := c :: n.whole }
  let addFraction := { n with fraction := c :: n.fraction }
  let addExponent := { n with exponent := n.exponent.map fun e => (e.1, c :: e.2) }
  match stage with
  | sign => if c = '0' then some (zero, addWhole)
    else if c.isDigit then some (whole, addWhole)
    else none
  | zero | whole => if c = '.' then some (point, n)
    else if c = 'e' || c = 'E' then some (mark, { n with exponent := some (false, []) })
    else if stage = whole && c.isDigit then some (whole, addWhole)
    else none
  | point => if c.isDigit then some (fraction, addFraction) else none
  | fraction => if c.isDigit then some (fraction, addFraction)
    else if c = 'e' || c = 'E' then some (mark, { n with exponent := some (false, []) })
    else none
  | mark => if c = '+' then some (markSign, n)
    else if c = '-' then some (markSign, { n with exponent := some (true, []) })
    else if c.isDigit then some (exponent, addExponent)
    else none
  | markSign | exponent => if c.isDigit then some (exponent, addExponent) else none

def hexValue? (c : Char) : Option Nat :=
  if c.isDigit then some (Text.digitValue c)
  else if 'a' ≤ c && c ≤ 'f' then some (c.toNat - 'a'.toNat + 10)
  else if 'A' ≤ c && c ≤ 'F' then some (c.toNat - 'A'.toNat + 10)
  else none

/-- The character that a backslash and `c` write. -/
def shortEscape? (c : Char) : Option Char :=
  match c with
  | '"' | '\\' | '/' => some c
  | 'b' => some '\x08'
  | 'f' => some '\x0c'
  | 'n' => some '\n'
  | 'r' => some '\r'
  | 't' => some '\t'
  | _ => none

def step (s : Scanner) (c : Char) : Option Scanner :=
  match s.mode with
  | between => s.begin? c
  | word [] _ => none
  | word (w :: left) token =>
    if c = w then
      if left.isEmpty then some (s.emit token) else some { s with mode := word left token }
    else none
  | number stage n =>
    match continueNumber? stage n c with
    | some (stage, n) => some { s with mode := number stage n }
    | none =>
      if stage.isComplete then (s.emit (.number (finishNumeral n))).begin? c else none
  | text parts .none =>
    if c = '"' then some (s.emit (.text parts.reverse))
    else if c = '\\' then some { s with mode := text parts .backslash }
    else if c.toNat < 0x20 then none
    else some { s with mode := text (.char c :: parts) .none }
  | text parts .backslash =>
    if c = 'u' then some { s with mode := text parts (.hex 3 0) }
    else (shortEscape? c).map fun x => { s with mode := text (.char x :: parts) .none }
  | text parts (.hex left unit) =>
    (hexValue? c).map fun d =>
      match left with
      | 0 => { s with mode := text (.unit (16 * unit + d) :: parts) .none }
      | left + 1 => { s with mode := text parts (.hex left (16 * unit + d)) }

def finish? (s : Scanner) : Option (List Token) :=
  match s.mode with
  | between => some s.found.reverse
  | number stage n =>
    if stage.isComplete then some (Token.number (finishNumeral n) :: s.found).reverse else none
  | _ => none

end Scanner

def tokens? (cs : List Char) : Option (List Token) := do
  (← cs.foldlM Scanner.step Scanner.start).finish?

end Fieldwise.Json
