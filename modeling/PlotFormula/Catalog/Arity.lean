/-! # Arities

How many arguments a function takes.
-/
namespace PlotFormula

inductive Arity where
  | exactly (count : Nat)
  | atLeast (least : Nat)
deriving DecidableEq, Repr

namespace Arity

def accepts : Arity → Nat → Bool
  | exactly n, count => count = n
  | atLeast n, count => n ≤ count

def text : Arity → String
  | exactly n => toString n
  | atLeast n => "at least " ++ toString n

end Arity
end PlotFormula
