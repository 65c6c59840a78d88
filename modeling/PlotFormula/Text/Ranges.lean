/-! # Sets of characters

A set of code points as an ascending list of ranges that do not meet.
-/
namespace PlotFormula.Text

/-- Whether a code point lies in one of the ranges. The search ends at the first range above it. -/
def inRanges (c : Nat) : List (Nat × Nat) → Bool
  | [] => false
  | (lo, hi) :: rs => if c < lo then false else c ≤ hi || inRanges c rs

end PlotFormula.Text
