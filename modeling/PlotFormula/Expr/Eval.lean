import PlotFormula.Catalog.Rule
import PlotFormula.Expr.Basic

/-! # Values and slopes

The value of a formula at a point, and its value together with one partial derivative. A point is the
list of the coordinates of the slots; a slot that it lacks has no value.
-/
namespace PlotFormula

/-- A value and its derivative along one variable, both at the same point. -/
structure Dual (α : Type) where
  value : α
  derivative : α
deriving Repr

namespace Dual
variable {α : Type}

def constant [Scalar α] (value : α) : Dual α := ⟨value, Scalar.zero⟩

def nan [Scalar α] : Dual α := ⟨Scalar.nan, Scalar.nan⟩

instance [BEq α] : BEq (Dual α) :=
  ⟨fun a b => a.value == b.value && a.derivative == b.derivative⟩

def isFinite (a : Dual Float) : Bool := a.value.isFinite && a.derivative.isFinite

variable [Scalar α]
open Scalar

/-- The slope of a power. The logarithm of the base is taken only where the exponent varies, so that a
locally constant exponent over a negative base has a slope. -/
def powerDerivative (a b : Dual α) : α :=
  if a.derivative == zero && b.derivative == zero then
    zero
  else if b.derivative == zero then
    pow a.value (b.value - one) * a.derivative * b.value
  else if a.derivative == zero then
    pow a.value b.value * b.derivative * log a.value
  else
    pow a.value (b.value - one) *
      (a.derivative * b.value + b.derivative * a.value * log a.value)

def binaryDerivative : Op → Dual α → Dual α → α
  | .add, a, b => a.derivative + b.derivative
  | .subtract, a, b => a.derivative - b.derivative
  | .multiply, a, b => a.value * b.derivative + b.value * a.derivative
  | .divide, a, b => (b.value * a.derivative - a.value * b.derivative) / (b.value * b.value)
  | .power, a, b => powerDerivative a b

def neg (a : Dual α) : Dual α := ⟨-a.value, -a.derivative⟩

def binary (op : Op) (a b : Dual α) : Dual α :=
  ⟨op.apply a.value b.value, binaryDerivative op a b⟩

def call (f : Func) (args : List (Dual α)) : Dual α :=
  ⟨f.value (args.map value), f.slope (args.map value) (args.map derivative)⟩

end Dual

namespace Expr
variable {α : Type} [Scalar α]

def coordinate (p : List α) (slot : Nat) : α := p[slot]?.getD Scalar.nan

mutual

def eval (p : List α) : Expr α → α
  | const c => c
  | var slot => coordinate p slot
  | neg a => -a.eval p
  | binary op a b => op.apply (a.eval p) (b.eval p)
  | call f args => f.value (evalArgs p args)
  | invalid => Scalar.nan

def evalArgs (p : List α) : List (Expr α) → List α
  | [] => []
  | a :: as => a.eval p :: evalArgs p as

end

mutual

/-- The value at a point and the partial derivative along slot `v`, in one walk of the tree. -/
def dual (p : List α) (v : Nat) : Expr α → Dual α
  | const c => .constant c
  | var slot => ⟨coordinate p slot, if slot = v then Scalar.one else Scalar.zero⟩
  | neg a => (a.dual p v).neg
  | binary op a b => .binary op (a.dual p v) (b.dual p v)
  | call f args => .call f (dualArgs p v args)
  | invalid => .nan

def dualArgs (p : List α) (v : Nat) : List (Expr α) → List (Dual α)
  | [] => []
  | a :: as => a.dual p v :: dualArgs p v as

end

theorem evalArgs_eq (p : List α) (args : List (Expr α)) : evalArgs p args = args.map (eval p) := by
  induction args with
  | nil => rfl
  | cons a as ih => simp [evalArgs, ih]

theorem dualArgs_eq (p : List α) (v : Nat) (args : List (Expr α)) :
    dualArgs p v args = args.map (dual p v) := by
  induction args with
  | nil => rfl
  | cons a as ih => simp [dualArgs, ih]

def derivative (p : List α) (v : Nat) (a : Expr α) : α := (a.dual p v).derivative

end Expr
end PlotFormula
