import PlotFormula.Expr.Eval

/-! # Many points

A formula at every point of a list, and at evenly spaced points of an interval, which is what a plot is
drawn from. The results come in the order of the points.
-/
namespace PlotFormula

structure Sample (α : Type) where
  x : α
  dual : Dual α
deriving Repr

namespace Expr
variable {α : Type} [Scalar α]

def evalPoints (a : Expr α) (points : List (List α)) : List α :=
  points.map fun p => a.eval p

def dualPoints (a : Expr α) (points : List (List α)) (v : Nat) : List (Dual α) :=
  points.map fun p => a.dual p v

def sampleAt (a : Expr α) (x : α) : Sample α := ⟨x, a.dual [x] 0⟩

/-- Samples of a formula in one variable at the ends of `resolution` equal parts of an interval. With
no parts there is one sample, at the start. -/
def sampleInterval (a : Expr α) (start stop : α) (resolution : Nat) : List (Sample α) :=
  if resolution = 0 then
    [a.sampleAt start]
  else
    let step := (stop - start) / Scalar.ofNat resolution
    (List.range (resolution + 1)).map fun i => a.sampleAt (start + step * Scalar.ofNat i)

end Expr
end PlotFormula
