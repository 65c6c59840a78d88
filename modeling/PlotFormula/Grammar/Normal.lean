import PlotFormula.Catalog.Func
import PlotFormula.Grammar.Arguments
import PlotFormula.Text.LowerCase

/-! # Normal text

A formula is read from its normal text: in lower case, without spaces, without parentheses around the
whole, and with every product written out. Names of functions are masked while products are looked for,
so that their letters never count as variables.
-/
namespace PlotFormula.Grammar

/-- The text in lower case and without spaces. No other blank is dropped. -/
def compact (text : List Char) : List Char :=
  (Text.lowerCase text).filter (· ≠ ' ')

/-- Whether the level of parentheses, which rises at a closing one, never reaches zero. It is counted without a
bound (see `bracket`). -/
def staysOpen (level : Int) : List Char → Bool
  | [] => true
  | c :: s => level - bracket c ≠ 0 && staysOpen (level - bracket c) s

/-- The text inside a pair of parentheses around the whole, as in `((x+1))` but not in `(a)+(b)`. The
interior is read from the right, where the last parenthesis has just closed. -/
def unwrap? : List Char → Option (List Char)
  | '(' :: s =>
    if s.getLast? = some ')' ∧ staysOpen 1 s.dropLast.reverse then some s.dropLast else none
  | _ => none

theorem eq_of_unwrap? {s inner : List Char} (h : unwrap? s = some inner) :
    s = '(' :: (inner ++ [')']) := by
  unfold unwrap? at h
  split at h
  next t =>
    split at h
    next ht =>
      obtain ⟨u, rfl⟩ := List.getLast?_eq_some_iff.mp ht.1
      simp_all
    next => simp at h
  next => simp at h

def strip (s : List Char) : List Char :=
  match _h : unwrap? s with
  | some inner => strip inner
  | none => s
termination_by s.length
decreasing_by
  rw [eq_of_unwrap? _h, List.length_cons, List.length_append]
  omega

def isNameStart (c : Char) : Bool := c.isAlpha || c == '_'

def isNamePart (c : Char) : Bool := c.isAlphanum || c == '_'

def firstWord : List Char → List Char
  | [] => []
  | c :: s => if isNameStart c then c :: s.takeWhile isNamePart else []

/-- Overwrites every name of the catalog that reaches to the end of its word, with `hidden` further
characters to overwrite first. -/
def maskFrom (hidden : Nat) : List Char → List Char
  | [] => []
  | c :: s =>
    match hidden with
    | n + 1 => '_' :: maskFrom n s
    | 0 =>
      let word := firstWord (c :: s)
      if (Func.lookup? word).isSome then '_' :: maskFrom (word.length - 1) s else c :: maskFrom 0 s

def maskNames (s : List Char) : List Char := maskFrom 0 s

/-- Whether a character is a variable of the table. The star is always the operator, even if the table has it.
A loop that asks the table alone never ends there: it takes the star it has written for a variable and writes the
next one beside it. So what is proved over tables with a star is about this definition and not about such a loop. -/
def isVariable (vars : List Char) (c : Char) : Bool := c ≠ '*' && vars.contains c

def isFactor (vars : List Char) (c : Char) : Bool := c.isDigit || c == '.' || isVariable vars c

def impliesProduct (vars : List Char) (c d : Char) : Bool :=
  (isFactor vars c && (d == '(' || isVariable vars d)) ||
    (isFactor vars d && (c == ')' || c == 'x')) ||
      (c == ')' && d == '(')

def insertProducts (vars : List Char) : List (Char × Char) → List Char
  | [] => []
  | [p] => [p.1]
  | p :: q :: s =>
    -- The mask decides, and the text is what is written.
    if impliesProduct vars p.2 q.2 then p.1 :: '*' :: insertProducts vars (q :: s)
    else p.1 :: insertProducts vars (q :: s)

def writeProducts (vars s : List Char) : List Char :=
  insertProducts vars (s.zip (maskNames s))

def normal (vars s : List Char) : List Char := writeProducts vars (strip s)

end PlotFormula.Grammar
