import PlotFormula.Text.HiddenTable

/-! # Quoted text

A text in double quotes, in which every character can be told from every other. A quote and a backslash
are escaped by a backslash, the common controls have letters, and other characters that do not show by
themselves are written as their code point.
-/
namespace PlotFormula.Text

def isHidden (c : Char) : Bool := inRanges c.toNat hiddenRanges

def escapeCodePoint (c : Char) : List Char :=
  ['\\', 'u', '{'] ++ Nat.toDigits 16 c.toNat ++ ['}']

def escapeChar (c : Char) : List Char :=
  match c with
  | '\x00' => ['\\', '0']
  | '\t' => ['\\', 't']
  | '\n' => ['\\', 'n']
  | '\r' => ['\\', 'r']
  | '"' => ['\\', '"']
  | '\\' => ['\\', '\\']
  | c => if isHidden c then escapeCodePoint c else [c]

def quote (s : List Char) : List Char :=
  '"' :: s.flatMap escapeChar ++ ['"']

end PlotFormula.Text
