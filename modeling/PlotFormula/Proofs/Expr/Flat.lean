import PlotFormula.Expr.Eval
import PlotFormula.Proofs.Double.Flat

/-! # No slope along a variable that does not occur

Every formula of the catalog for a slope is a sum of products with the slopes of the arguments, or one of
these slopes. So flat arguments give a flat slope, whatever the values are, and a tree is flat along every
slot that it does not depend on.
-/
namespace PlotFormula
open Double

namespace Rule

/-- The rule gives a flat slope where the slopes of the arguments are flat. -/
def KeepsFlat : Rule Float → Prop
  | constant _ => True
  | unary _ slope => ∀ x d, IsFlat d → IsFlat (slope x d)
  | binary _ slope => ∀ x y dx dy, IsFlat dx → IsFlat dy → IsFlat (slope x y dx dy)
  | variadic _ slope => ∀ x xs d ds, IsFlat d → (∀ e ∈ ds, IsFlat e) → IsFlat (slope x xs d ds)

theorem KeepsFlat.slope? {r : Rule Float} (h : r.KeepsFlat) {args slopes : List Float}
    (hslopes : ∀ d ∈ slopes, IsFlat d) : ∀ d ∈ r.slope? args slopes, IsFlat d := by
  intro d hd
  unfold Rule.slope? at hd
  split at hd
  next =>
    obtain rfl := Option.some.inj hd
    exact .zero
  next x e =>
    obtain rfl := Option.some.inj hd
    exact h x e (hslopes e (by simp))
  next x y dx dy =>
    obtain rfl := Option.some.inj hd
    exact h x y dx dy (hslopes dx (by simp)) (hslopes dy (by simp))
  next x xs e es =>
    split at hd
    · obtain rfl := Option.some.inj hd
      exact h x xs e es (hslopes e (by simp)) fun e' he' => hslopes e' (by simp [he'])
    · cases hd
  next => cases hd

theorem keepsFlat_step (value : Float → Float) : (step value).KeepsFlat := fun _ _ _ => .zero

theorem keepsFlat_extremum (pick : Float → Float → Float) (beats : Float → Float → Bool) :
    (extremum pick beats).KeepsFlat := by
  intro x xs d ds hd hds
  dsimp only
  split
  · exact .nan
  · exact List.forall_mem_cons.mpr ⟨hd, hds⟩ _ (winnerSlope_mem beats x xs d ds)

end Rule

theorem Func.keepsFlat_rule (f : Func) : (f.rule : Rule Float).KeepsFlat := by
  cases f with
  | abs =>
    intro x d hd
    dsimp only
    split
    · exact hd
    · exact hd.neg
  | arccos | arccot | arccsc | cot | csc => exact fun x d hd => hd.neg.div _
  | arcsec | arcsin | arctan | ln | sqrt | tan => exact fun x d hd => hd.div _
  | ceil | floor | round => exact Rule.keepsFlat_step _
  | cos => exact fun x d hd => hd.neg.mul_right _
  | exp | sin => exact fun x d hd => hd.mul_right _
  | max | min => exact Rule.keepsFlat_extremum _ _
  | mod => exact fun _ _ _ _ hdx _ => hdx
  | sec => exact fun x d hd => (hd.mul_right _).div _
  | sqr => exact fun x d hd => (hd.mul_left _).mul_right _
  | pi | e => exact trivial

theorem Func.isFlat_slope (f : Func) (args : List Float) {slopes : List Float} (h : ∀ d ∈ slopes, IsFlat d) :
    IsFlat (f.slope args slopes) := by
  rw [slope]
  cases hslope : (f.rule : Rule Float).slope? args slopes with
  | none => exact .nan
  | some d => exact f.keepsFlat_rule.slope? h d hslope

namespace Dual

theorem isFlat_powerDerivative {a b : Dual Float} (ha : IsFlat a.derivative) (hb : IsFlat b.derivative) :
    IsFlat (powerDerivative a b) := by
  unfold powerDerivative
  split
  · exact .zero
  split
  · exact (ha.mul_left _).mul_right _
  split
  · exact (hb.mul_left _).mul_right _
  · exact ((ha.mul_right _).add ((hb.mul_right _).mul_right _)).mul_left _

theorem isFlat_binaryDerivative (op : Op) {a b : Dual Float} (ha : IsFlat a.derivative)
    (hb : IsFlat b.derivative) : IsFlat (binaryDerivative op a b) := by
  cases op with
  | add => exact ha.add hb
  | subtract => exact ha.sub hb
  | multiply => exact (hb.mul_left _).add (ha.mul_left _)
  | divide => exact ((ha.mul_left _).sub (hb.mul_left _)).div _
  | power => exact isFlat_powerDerivative ha hb

end Dual

namespace Expr

theorem isFlat_derivative {a : Expr Float} {v : Nat} (h : a.dependsOn v = false) (p : List Float) :
    IsFlat (a.derivative p v) := by
  unfold derivative
  induction a with
  | const c => exact .zero
  | var slot =>
    have hslot : slot ≠ v := by simpa [dependsOn] using h
    rw [dual, if_neg hslot]
    exact .zero
  | neg a ih => exact (ih h).neg
  | binary op a b iha ihb =>
    rw [dependsOn, Bool.or_eq_false_iff] at h
    exact Dual.isFlat_binaryDerivative op (iha h.1) (ihb h.2)
  | call f args ih =>
    rw [dependsOn, someDependsOn_eq, List.any_eq_false] at h
    apply f.isFlat_slope
    intro d hd
    rw [dualArgs_eq, List.map_map] at hd
    obtain ⟨a, ha, rfl⟩ := List.mem_map.mp hd
    exact ih a ha (Bool.eq_false_iff.mpr (h a ha))
  | invalid => exact .nan

/-- Along a slot whose variable does not occur the derivative is a zero of either sign or a NaN. -/
theorem derivative_of_not_dependsOn {a : Expr Float} {v : Nat} (h : a.dependsOn v = false) (p : List Float) :
    a.derivative p v = 0 ∨ a.derivative p v = -0.0 ∨ (a.derivative p v).isNaN = true :=
  isFlat_iff.mp (isFlat_derivative h p)

def negatedReciprocal : Expr Float := .neg (.binary .divide (.const 1) (.var 0))

/-- Along another slot it has the slope `-0`, and none at its pole. -/
theorem derivative_of_not_dependsOn_pole :
    negatedReciprocal.dependsOn 1 = false ∧ negatedReciprocal.derivative [2, 5] 1 = -0.0 ∧
      (negatedReciprocal.derivative [0, 5] 1 = 0 ∨ negatedReciprocal.derivative [0, 5] 1 = -0.0 ∨
        (negatedReciprocal.derivative [0, 5] 1).isNaN = true) ∧
      (negatedReciprocal.derivative [0, 5] 1).isNaN = true :=
  ⟨rfl, by decide +kernel, derivative_of_not_dependsOn rfl [0, 5], by decide +kernel⟩

end Expr
end PlotFormula
