/-! # Scalars

The arithmetic over which formulas are evaluated. Nothing is assumed about the operations: the
order in which a formula applies them is what its meaning consists of, so the same definitions
can be read over doubles, over exact rationals or over truncated polynomials.
-/
namespace PlotFormula

class Scalar (α : Type) extends Add α, Sub α, Mul α, Div α, Neg α, BEq α where
  ofNat : Nat → α
  half : α
  pi : α
  euler : α
  /-- Stands for a value that does not exist, such as the coordinate of a missing slot. -/
  nan : α
  isNaN : α → Bool
  lt : α → α → Bool
  le : α → α → Bool
  /-- The greater of two, or the other one where one of them is no number. -/
  max : α → α → α
  min : α → α → α
  floor : α → α
  ceil : α → α
  abs : α → α
  sqrt : α → α
  pow : α → α → α
  exp : α → α
  log : α → α
  sin : α → α
  cos : α → α
  tan : α → α
  asin : α → α
  acos : α → α
  atan : α → α

namespace Scalar
variable {α : Type} [Scalar α]

def zero : α := ofNat 0
def one : α := ofNat 1
def two : α := ofNat 2
def square (x : α) : α := x * x

end Scalar
end PlotFormula
