import PlotFormula.Text.LetterTable

/-! # Lower case

The lower case of a whole text. One character may become two, and the capital sigma depends on its
place: at the end of a word it becomes the final sigma.
-/
namespace PlotFormula.Text

def lowerCodePoint (c : Nat) : List CaseRange → Nat
  | [] => c
  | r :: rs =>
    if c < r.first then c
    else if c ≤ r.last ∧ (c - r.first) % r.step = 0 then (c + r.shift).toNat
    else lowerCodePoint c rs

/-- The lower case of a character that stands alone. The capital I with a dot keeps the dot as a mark of
its own. -/
def lowerChar (c : Char) : List Char :=
  if c = '\u0130' then ['i', '\u0307']
  else [Char.ofNat (lowerCodePoint c.toNat lowerCaseRanges)]

def isCased (c : Char) : Bool := inRanges c.toNat casedRanges

def isCaseIgnorable (c : Char) : Bool := inRanges c.toNat caseIgnorableRanges

def startsCased (s : List Char) : Bool :=
  (s.dropWhile isCaseIgnorable).head?.any isCased

/-- The lower case of a character between the text before it, nearest character first, and the text
after it. -/
def lowerCharBetween (before : List Char) (c : Char) (after : List Char) : List Char :=
  if c = 'Σ' then
    if startsCased before && !startsCased after then ['ς'] else ['σ']
  else
    lowerChar c

def lowerCaseFrom (before : List Char) : List Char → List Char
  | [] => []
  | c :: after => lowerCharBetween before c after ++ lowerCaseFrom (c :: before) after

def lowerCase (s : List Char) : List Char := lowerCaseFrom [] s

end PlotFormula.Text
