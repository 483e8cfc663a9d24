import Fieldwise.Text.Numeral

/-!
Colours of terminal text, which can be switched off.
-/

namespace Fieldwise.CommandLine

/-- The codes of a style, one after the other. -/
inductive Style
  | bold
  | dimmed
  | red
  | green
  | yellow
  | cyan
  | boldRed
  | boldYellow
deriving DecidableEq

namespace Style

def codes : Style → List Char
  | bold => ['1']
  | dimmed => ['2']
  | red => ['3', '1']
  | green => ['3', '2']
  | yellow => ['3', '3']
  | cyan => ['3', '6']
  | boldRed => ['1', ';', '3', '1']
  | boldYellow => ['1', ';', '3', '3']

def opening (s : Style) : List Char := '\x1b' :: '[' :: s.codes ++ ['m']

def closing : List Char := ['\x1b', '[', '0', 'm']

/-- A style that ends inside the text begins again there. -/
def reopen (s : Style) : List Char → List Char
  | '\x1b' :: '[' :: '0' :: 'm' :: rest => closing ++ s.opening ++ reopen s rest
  | c :: rest => c :: reopen s rest
  | [] => []

/-- The text in a style, if there are colours. -/
def paint (s : Style) (coloured : Bool) (text : String) : String :=
  if coloured then String.ofList (s.opening ++ s.reopen text.toList ++ closing) else text

end Style

def padRight (width : Nat) (text : String) : String :=
  String.ofList (text.toList ++ List.replicate (width - text.length) ' ')

end Fieldwise.CommandLine
