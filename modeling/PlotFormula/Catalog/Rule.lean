import PlotFormula.Catalog.Func
import PlotFormula.Scalar

/-! # What the functions compute

The rule of a function gives the value of a call and its slope. The slope is computed from the arguments
and from the slopes of the arguments, by the chain rule. Steps are flat everywhere, `mod` follows its
dividend, and an extremum follows the first argument that attains it.
-/
namespace PlotFormula

/-- A value and a slope, for a fixed number of arguments or for one and any number of further ones. -/
inductive Rule (α : Type) where
  | constant (value : α)
  | unary (value : α → α) (slope : (x d : α) → α)
  | binary (value : α → α → α) (slope : (x y dx dy : α) → α)
  | variadic (value : α → List α → α) (slope : (x : α) → (xs : List α) → (d : α) → (ds : List α) → α)

namespace Rule
variable {α : Type} [Scalar α]
open Scalar

def value? : Rule α → List α → Option α
  | constant c, [] => some c
  | unary f _, [x] => some (f x)
  | binary f _, [x, y] => some (f x y)
  | variadic f _, x :: xs => some (f x xs)
  | _, _ => none

def slope? : Rule α → List α → List α → Option α
  | constant _, [], [] => some zero
  | unary _ f, [x], [d] => some (f x d)
  | binary _ f, [x, y], [dx, dy] => some (f x y dx dy)
  | variadic _ f, x :: xs, d :: ds => if ds.length = xs.length then some (f x xs d ds) else none
  | _, _, _ => none

def step (value : α → α) : Rule α :=
  unary value fun _ _ => zero

/-- The slope that stands at the place of the argument that no other beats, the first one if there are
several. -/
def winnerSlope (beats : α → α → Bool) (x : α) (xs : List α) (d : α) (ds : List α) : α :=
  ((xs.zip ds).foldl (fun best v => if beats v.1 best.1 then v else best) (x, d)).2

omit [Scalar α] in
theorem winnerSlope_cons (beats : α → α → Bool) (x v : α) (xs : List α) (d e : α) (ds : List α) :
    winnerSlope beats x (v :: xs) d (e :: ds) =
      if beats v x then winnerSlope beats v xs e ds else winnerSlope beats x xs d ds := by
  rw [winnerSlope, List.zip_cons_cons, List.foldl_cons]
  split <;> rfl

omit [Scalar α] in
theorem winnerSlope_mem (beats : α → α → Bool) (x : α) (xs : List α) (d : α) (ds : List α) :
    winnerSlope beats x xs d ds ∈ d :: ds := by
  induction xs generalizing x d ds with
  | nil => exact List.mem_cons_self
  | cons v xs ih =>
    cases ds with
    | nil => exact List.mem_cons_self
    | cons e ds =>
      rw [winnerSlope_cons]
      split
      · exact List.mem_cons_of_mem d (ih v e ds)
      · rcases List.mem_cons.mp (ih x d ds) with hd | hds
        · rw [hd]
          exact List.mem_cons_self
        · exact List.mem_cons_of_mem d (List.mem_cons_of_mem e hds)

/-- What is left of the arguments when two at a time are reduced to one. A NaN leaves nothing, wherever it
stands. -/
def extremum (pick : α → α → α) (beats : α → α → Bool) : Rule α :=
  variadic (fun x xs => if (x :: xs).any isNaN then nan else xs.foldl pick x)
    fun x xs d ds => if (x :: xs).any isNaN then nan else winnerSlope beats x xs d ds

/-- The nearest integer, a half going up. The distance to the floor is compared with a half, since the
sum of `x` and a half may already be rounded. -/
def roundHalfUp (x : α) : α :=
  let f := Scalar.floor x
  if le half (x - f) then f + one else f

end Rule

namespace Func
variable {α : Type} [Scalar α]
open Rule Scalar

def rule : Func → Rule α
  | abs => unary Scalar.abs fun x d => if le zero x then d else -d
  | arccos => unary acos fun x d => (-d) / Scalar.sqrt (one - x * x)
  | arccot => unary (fun x => atan (one / x)) fun x d => (-d) / (one + x * x)
  | arccsc => unary (fun x => asin (one / x)) fun x d => (-d) / (x * Scalar.sqrt (x * x - one))
  | arcsec => unary (fun x => acos (one / x)) fun x d => d / (x * Scalar.sqrt (x * x - one))
  | arcsin => unary asin fun x d => d / Scalar.sqrt (one - x * x)
  | arctan => unary atan fun x d => d / (one + x * x)
  | ceil => step Scalar.ceil
  | cos => unary Scalar.cos fun x d => (-d) * Scalar.sin x
  | cot => unary (fun x => one / Scalar.tan x) fun x d => (-d) / square (Scalar.sin x)
  | csc => unary (fun x => one / Scalar.sin x) fun x d => (-d) / (Scalar.sin x * Scalar.tan x)
  | floor => step Scalar.floor
  | max => extremum Scalar.max fun v best => lt best v
  | min => extremum Scalar.min fun v best => lt v best
  | mod => binary (fun x y => x - Scalar.floor (x / y) * y) fun _ _ dx _ => dx
  | round => step roundHalfUp
  | sec => unary (fun x => one / Scalar.cos x) fun x d => d * Scalar.tan x / Scalar.cos x
  | sin => unary Scalar.sin fun x d => d * Scalar.cos x
  | sqr => unary square fun x d => two * d * x
  | sqrt => unary Scalar.sqrt fun x d => d / (two * Scalar.sqrt x)
  | tan => unary Scalar.tan fun x d => d / square (Scalar.cos x)
  | exp => unary Scalar.exp fun x d => d * Scalar.exp x
  | ln => unary log fun x d => d / x
  | pi => constant Scalar.pi
  | e => constant euler

def value (f : Func) (args : List α) : α :=
  (f.rule.value? args).getD nan

def slope (f : Func) (args slopes : List α) : α :=
  (f.rule.slope? args slopes).getD nan

end Func
end PlotFormula
