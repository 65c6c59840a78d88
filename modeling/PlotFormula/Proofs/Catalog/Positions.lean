import Mathlib.Data.List.Basic
import PlotFormula.Catalog.Rule

/-! # Reading arguments by position

A formula takes its arguments from a slice, by their positions, and counts on the slice being long enough. What
makes this safe is that the arity of a function, which is checked before, is the one of its formulas.
-/
namespace PlotFormula
open Scalar

namespace Rule
variable {α : Type} [Scalar α]

def arity : Rule α → Arity
  | constant _ => .exactly 0
  | unary .. => .exactly 1
  | binary .. => .exactly 2
  | variadic .. => .atLeast 1

/-- The value at a slice, the positions that the shape of the rule names being read without a check. There is none
if one of them is out of range. A formula reads these positions at most: the slope of `mod` leaves out all but the
slope of the dividend, and that of a step reads nothing. -/
def valueAt? : Rule α → List α → Option α
  | constant c, _ => some c
  | unary f _, args => do return f (← args[0]?)
  | binary f _, args => do return f (← args[0]?) (← args[1]?)
  | variadic f _, args => do return f (← args[0]?) (args.drop 1)

/-- The slope at two parallel slices, read in the same way. -/
def slopeAt? : Rule α → List α → List α → Option α
  | constant _, _, _ => some zero
  | unary _ f, args, slopes => do return f (← args[0]?) (← slopes[0]?)
  | binary _ f, args, slopes => do return f (← args[0]?) (← args[1]?) (← slopes[0]?) (← slopes[1]?)
  | variadic _ f, args, slopes => do return f (← args[0]?) (args.drop 1) (← slopes[0]?) (slopes.drop 1)

omit [Scalar α] in
theorem fits_of_value? {r : Rule α} {args : List α} {y : α} (h : r.value? args = some y) :
    r.arity.accepts args.length = true ∧ r.valueAt? args = some y := by
  unfold value? at h
  split at h
  case h_5 => cases h
  all_goals exact ⟨by simp [arity, Arity.accepts], h⟩

omit [Scalar α] in
theorem exists_value? {r : Rule α} {args : List α} (h : r.arity.accepts args.length = true) :
    ∃ y, r.value? args = some y := by
  cases r with
  | constant c =>
    obtain rfl := List.length_eq_zero_iff.mp (of_decide_eq_true h)
    exact ⟨c, rfl⟩
  | unary f g =>
    obtain ⟨x, rfl⟩ := List.length_eq_one_iff.mp (of_decide_eq_true h)
    exact ⟨f x, rfl⟩
  | binary f g =>
    obtain ⟨x, y, rfl⟩ := List.length_eq_two.mp (of_decide_eq_true h)
    exact ⟨f x y, rfl⟩
  | variadic f g =>
    obtain ⟨x, xs, rfl⟩ := List.exists_cons_of_length_pos (of_decide_eq_true h)
    exact ⟨f x xs, rfl⟩

theorem fits_of_slope? {r : Rule α} {args slopes : List α} {y : α} (h : r.slope? args slopes = some y) :
    (r.arity.accepts args.length = true ∧ slopes.length = args.length) ∧ r.slopeAt? args slopes = some y := by
  unfold slope? at h
  split at h
  case h_4 f x xs d ds =>
    split at h
    next hlength => exact ⟨⟨by simp [arity, Arity.accepts], by simp [hlength]⟩, h⟩
    next => cases h
  case h_5 => cases h
  all_goals exact ⟨⟨by simp [arity, Arity.accepts], rfl⟩, h⟩

theorem exists_slope? {r : Rule α} {args slopes : List α} (h : r.arity.accepts args.length = true)
    (hlength : slopes.length = args.length) : ∃ y, r.slope? args slopes = some y := by
  cases r with
  | constant c =>
    obtain rfl := List.length_eq_zero_iff.mp (of_decide_eq_true h)
    obtain rfl := List.length_eq_zero_iff.mp hlength
    exact ⟨zero, rfl⟩
  | unary f g =>
    obtain ⟨x, rfl⟩ := List.length_eq_one_iff.mp (of_decide_eq_true h)
    obtain ⟨d, rfl⟩ := List.length_eq_one_iff.mp hlength
    exact ⟨g x d, rfl⟩
  | binary f g =>
    obtain ⟨x, y, rfl⟩ := List.length_eq_two.mp (of_decide_eq_true h)
    obtain ⟨d, e, rfl⟩ := List.length_eq_two.mp hlength
    exact ⟨g x y d e, rfl⟩
  | variadic f g =>
    obtain ⟨x, xs, rfl⟩ := List.exists_cons_of_length_pos (of_decide_eq_true h)
    obtain ⟨d, ds, rfl⟩ := List.exists_cons_of_length_eq_add_one hlength
    exact ⟨g x xs d ds, if_pos (Nat.succ.inj hlength)⟩

end Rule

namespace Func
variable {α : Type} [Scalar α]

/-- The arity in the catalog is that of the formulas beside it. -/
theorem arity_rule (f : Func) : (f.rule : Rule α).arity = f.arity := by
  cases f <;> rfl

/-- The value of a call behind the check of its arity, the formula itself checking nothing. -/
def valueAt? (f : Func) (args : List α) : Option α :=
  if f.arity.accepts args.length then f.rule.valueAt? args else some nan

def slopeAt? (f : Func) (args slopes : List α) : Option α :=
  if f.arity.accepts args.length = true ∧ slopes.length = args.length then f.rule.slopeAt? args slopes
  else some nan

theorem value_of_misfit {f : Func} {args : List α} (h : f.arity.accepts args.length = false) :
    f.value args = nan := by
  rw [value]
  cases hvalue : (f.rule : Rule α).value? args with
  | none => rfl
  | some y =>
    have hfits := (Rule.fits_of_value? hvalue).1
    rw [arity_rule, h] at hfits
    cases hfits

theorem slope_of_misfit {f : Func} {args slopes : List α}
    (h : ¬ (f.arity.accepts args.length = true ∧ slopes.length = args.length)) : f.slope args slopes = nan := by
  rw [slope]
  cases hslope : (f.rule : Rule α).slope? args slopes with
  | none => rfl
  | some y =>
    have hfits := (Rule.fits_of_slope? hslope).1
    rw [arity_rule] at hfits
    exact absurd hfits h

theorem rule_valueAt? {f : Func} {args : List α} (h : f.arity.accepts args.length = true) :
    f.rule.valueAt? args = some (f.value args) := by
  have hrule : (f.rule : Rule α).arity = f.arity := arity_rule f
  rw [← hrule] at h
  obtain ⟨y, hy⟩ := Rule.exists_value? h
  rw [(Rule.fits_of_value? hy).2, value, hy, Option.getD_some]

theorem rule_slopeAt? {f : Func} {args slopes : List α} (h : f.arity.accepts args.length = true)
    (hlength : slopes.length = args.length) : f.rule.slopeAt? args slopes = some (f.slope args slopes) := by
  have hrule : (f.rule : Rule α).arity = f.arity := arity_rule f
  rw [← hrule] at h
  obtain ⟨y, hy⟩ := Rule.exists_slope? h hlength
  rw [(Rule.fits_of_slope? hy).2, slope, hy, Option.getD_some]

theorem valueAt?_eq (f : Func) (args : List α) : f.valueAt? args = some (f.value args) := by
  rw [valueAt?]
  split
  next h => exact rule_valueAt? h
  next h => rw [value_of_misfit (Bool.eq_false_iff.mpr h)]

theorem slopeAt?_eq (f : Func) (args slopes : List α) : f.slopeAt? args slopes = some (f.slope args slopes) := by
  rw [slopeAt?]
  split
  next h => exact rule_slopeAt? h.1 h.2
  next h => rw [slope_of_misfit h]

end Func
end PlotFormula
