import PlotFormula.Double.Notation
import PlotFormula.Expr.Basic
import PlotFormula.Grammar.Arguments

/-! # Formulas as text

A formula is written with a pair of parentheses around every operation, so that no precedence is needed
to read it. Variables are written with the names of a table, or as `v` and the slot where the table
ends.
-/
namespace PlotFormula.Expr

def slotText (names : List Char) (slot : Nat) : List Char :=
  match names[slot]? with
  | some c => [c]
  | none => 'v' :: Nat.toDigits 10 slot

/-- A negative constant stands in parentheses, so that its sign is no operator of what is around it. -/
def constText (x : Float) : List Char :=
  if x < 0 then '(' :: Double.positional x ++ [')'] else Double.positional x

mutual

def render (names : List Char) : Expr Float → List Char
  | const x => constText x
  | var slot => slotText names slot
  | neg a => ['(', '-'] ++ a.render names ++ [')']
  | binary op a b => ['('] ++ a.render names ++ [op.symbol] ++ b.render names ++ [')']
  | call f args => f.name ++ ['('] ++ Grammar.joinArguments (renderArgs names args) ++ [')']
  | invalid => ['<', 'i', 'n', 'v', 'a', 'l', 'i', 'd', '>']

def renderArgs (names : List Char) : List (Expr Float) → List (List Char)
  | [] => []
  | a :: as => a.render names :: renderArgs names as

end

theorem renderArgs_eq (names : List Char) (args : List (Expr Float)) :
    renderArgs names args = args.map (render names) := by
  induction args with
  | nil => rfl
  | cons a as ih => simp [renderArgs, ih]

end PlotFormula.Expr
