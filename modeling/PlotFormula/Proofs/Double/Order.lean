import PlotFormula.Proofs.Double.Rounding

/-! # The order of doubles

A double that is a number has a value, the infinities being above and below all others. Core compares
doubles by sign, exponent and significand, in this order. So do their values compare: a greater exponent
outweighs every significand, since only the least exponent has significands with few bits. The comparisons
of numbers are therefore those of their values, and the two zeros are equal.
-/
namespace PlotFormula.Double
open Float.Model (UnpackedFloat)
open Float.Model.UnpackedFloat

def finiteValue : UnpackedFloat → ℚ
  | .finite .positive m q _ => m * 2 ^ q
  | .finite .negative m q _ => -(m * 2 ^ q)
  | _ => 0

/-- The value of a number. That of a NaN is of no meaning. -/
def extendedValue : UnpackedFloat → WithBot (WithTop ℚ)
  | .infinity .positive => ⊤
  | .infinity .negative => ⊥
  | u => (finiteValue u : WithTop ℚ)

def value (x : Float) : WithBot (WithTop ℚ) := extendedValue x.toModel.unpack

theorem Canonical.value_lt {m m' : Nat} {q q' : Int} (h : Canonical m q) (h' : Canonical m' q') (hq : q < q') :
    (m * 2 ^ q : ℚ) < m' * 2 ^ q' := by
  have hbelow := h.suits.value_lt
  have habove := h'.suits.le_value (by have := h.low; omega)
  have hpower : (2 ^ (q + 53) : ℚ) ≤ 2 ^ (q' + 52) := zpow_le_zpow_right₀ (by norm_num) (by omega)
  rw [Nat.cast_one, div_one] at hbelow habove
  exact hbelow.trans_le (hpower.trans habove)

/-- The exponents decide, and the significands where the exponents are equal. -/
theorem Canonical.compare_eq {m m' : Nat} {q q' : Int} (h : Canonical m q) (h' : Canonical m' q') :
    (compare q q').then (compare m m') = compare (m * 2 ^ q : ℚ) (m' * 2 ^ q') := by
  rcases lt_trichotomy q q' with hq | rfl | hq
  · rw [compare_lt_iff_lt.mpr hq, compare_lt_iff_lt.mpr (h.value_lt h' hq)]
    rfl
  · have hpos : (0 : ℚ) < 2 ^ q := by positivity
    rw [compare_eq_iff_eq.mpr rfl, Ordering.eq_then]
    rcases lt_trichotomy m m' with hm | rfl | hm
    · rw [compare_lt_iff_lt.mpr hm, compare_lt_iff_lt.mpr]
      exact mul_lt_mul_of_pos_right (by exact_mod_cast hm) hpos
    · rw [compare_eq_iff_eq.mpr rfl, compare_eq_iff_eq.mpr rfl]
    · rw [compare_gt_iff_gt.mpr hm, compare_gt_iff_gt.mpr]
      exact mul_lt_mul_of_pos_right (by exact_mod_cast hm) hpos
  · rw [compare_gt_iff_gt.mpr hq, compare_gt_iff_gt.mpr (h'.value_lt h hq)]
    rfl

theorem swap_compare (v w : ℚ) : (compare v w).swap = compare (-v) (-w) := by
  rcases lt_trichotomy v w with h | rfl | h
  · rw [compare_lt_iff_lt.mpr h, compare_gt_iff_gt.mpr (neg_lt_neg h)]
    rfl
  · rw [compare_eq_iff_eq.mpr rfl, compare_eq_iff_eq.mpr rfl]
    rfl
  · rw [compare_gt_iff_gt.mpr h, compare_lt_iff_lt.mpr (neg_lt_neg h)]
    rfl

theorem finiteValue_pos {m : Nat} {q : Int} (hm : 0 < m) : (0 : ℚ) < m * 2 ^ q := by positivity

theorem compare_zero (s : Sign) {u : UnpackedFloat} (hu : u.isFinite = true) :
    (zero s).compare u = some (compare 0 (finiteValue u)) ∧
      u.compare (.zero s) = some (compare (finiteValue u) 0) := by
  cases u with
  | notANumber => cases hu
  | infinity t => cases hu
  | zero t => exact ⟨congrArg some (compare_eq_iff_eq.mpr rfl).symm, congrArg some (compare_eq_iff_eq.mpr rfl).symm⟩
  | finite t m q hm =>
    have hpos := finiteValue_pos (q := q) hm
    have hneg := neg_lt_zero.mpr hpos
    cases t with
    | positive =>
      exact ⟨congrArg some (compare_lt_iff_lt.mpr hpos).symm, congrArg some (compare_gt_iff_gt.mpr hpos).symm⟩
    | negative =>
      exact ⟨congrArg some (compare_gt_iff_gt.mpr hneg).symm, congrArg some (compare_lt_iff_lt.mpr hneg).symm⟩

/-- The signs decide where they differ, and the smaller of two negative numbers is the one farther from zero. -/
theorem compare_nonzero (s t : Sign) {m m' : Nat} {q q' : Int} {hm : 0 < m} {hm' : 0 < m'} (h : Canonical m q)
    (h' : Canonical m' q') :
    (finite s m q hm).compare (.finite t m' q' hm') =
      some (compare (finiteValue (.finite s m q hm)) (finiteValue (.finite t m' q' hm'))) := by
  have hcompare := h.compare_eq h'
  have hpos := finiteValue_pos (q := q) hm
  have hpos' := finiteValue_pos (q := q') hm'
  cases s with
  | positive =>
    cases t with
    | positive => exact congrArg some hcompare
    | negative => exact congrArg some (compare_gt_iff_gt.mpr ((neg_lt_zero.mpr hpos').trans hpos)).symm
  | negative =>
    cases t with
    | positive => exact congrArg some (compare_lt_iff_lt.mpr ((neg_lt_zero.mpr hpos).trans hpos')).symm
    | negative => simp only [UnpackedFloat.compare, finiteValue, hcompare, swap_compare]

theorem compare_finite {x y : Float} (hx : x.isFinite = true) (hy : y.isFinite = true) :
    x.toModel.unpack.compare y.toModel.unpack =
      some (compare (finiteValue x.toModel.unpack) (finiteValue y.toModel.unpack)) := by
  change x.toModel.unpack.isFinite = true at hx
  change y.toModel.unpack.isFinite = true at hy
  cases hu : x.toModel.unpack with
  | notANumber => rw [hu] at hx; cases hx
  | infinity s => rw [hu] at hx; cases hx
  | zero s => exact (compare_zero s hy).1
  | finite s m q hm =>
    cases hv : y.toModel.unpack with
    | notANumber => rw [hv] at hy; cases hy
    | infinity t => rw [hv] at hy; cases hy
    | zero t =>
      rw [hu] at hx
      exact (compare_zero t hx).2
    | finite t m' q' hm' => exact compare_nonzero s t (canonical_of_unpack hu) (canonical_of_unpack hv)

theorem finite_or_infinite {x : Float} (hx : x.isNaN = false) :
    x.isFinite = true ∨ ∃ s, x.toModel.unpack = .infinity s := by
  change x.toModel.unpack.isNaN = false at hx
  show x.toModel.unpack.isFinite = true ∨ _
  cases hu : x.toModel.unpack with
  | notANumber => rw [hu] at hx; cases hx
  | infinity s => exact .inr ⟨s, rfl⟩
  | zero s => exact .inl rfl
  | finite s m q hm => exact .inl rfl

theorem value_of_finite {x : Float} (hx : x.isFinite = true) :
    value x = ((finiteValue x.toModel.unpack : ℚ) : WithTop ℚ) := by
  change x.toModel.unpack.isFinite = true at hx
  rw [value]
  cases hu : x.toModel.unpack with
  | infinity s => rw [hu] at hx; cases hx
  | _ => rfl

theorem compare_coe (v w : ℚ) :
    compare ((v : WithTop ℚ) : WithBot (WithTop ℚ)) ((w : WithTop ℚ) : WithBot (WithTop ℚ)) = compare v w := by
  rcases lt_trichotomy v w with h | rfl | h
  · rw [compare_lt_iff_lt.mpr h, compare_lt_iff_lt]
    exact_mod_cast h
  · rw [compare_eq_iff_eq.mpr rfl, compare_eq_iff_eq.mpr rfl]
  · rw [compare_gt_iff_gt.mpr h, compare_gt_iff_gt]
    exact_mod_cast h

def beyond : Sign → Ordering
  | .positive => .gt
  | .negative => .lt

theorem compare_infinity (s : Sign) {u : UnpackedFloat} (hu : u.isFinite = true) :
    (infinity s).compare u = some (beyond s) ∧ u.compare (.infinity s) = some (beyond s).swap := by
  cases u with
  | notANumber => cases hu
  | infinity t => cases hu
  | zero t => cases s <;> exact ⟨rfl, rfl⟩
  | finite t m q hm => cases s <;> cases t <;> exact ⟨rfl, rfl⟩

theorem compare_extendedValue (s : Sign) (v : ℚ) :
    compare (extendedValue (.infinity s)) ((v : WithTop ℚ) : WithBot (WithTop ℚ)) = beyond s ∧
      compare ((v : WithTop ℚ) : WithBot (WithTop ℚ)) (extendedValue (.infinity s)) = (beyond s).swap := by
  cases s with
  | positive =>
    have htop : ((v : WithTop ℚ) : WithBot (WithTop ℚ)) < ⊤ := WithBot.coe_lt_coe.mpr (WithTop.coe_lt_top v)
    exact ⟨compare_gt_iff_gt.mpr htop, compare_lt_iff_lt.mpr htop⟩
  | negative =>
    have hbot : ⊥ < ((v : WithTop ℚ) : WithBot (WithTop ℚ)) := WithBot.bot_lt_coe _
    exact ⟨compare_lt_iff_lt.mpr hbot, compare_gt_iff_gt.mpr hbot⟩

theorem compare_infinities (s t : Sign) :
    (infinity s).compare (.infinity t) =
      some (compare (extendedValue (.infinity s)) (extendedValue (.infinity t))) := by
  have hlt : (⊥ : WithBot (WithTop ℚ)) < ⊤ := bot_lt_top
  cases s with
  | positive =>
    cases t with
    | positive => exact congrArg some (compare_eq_iff_eq.mpr rfl).symm
    | negative => exact congrArg some (compare_gt_iff_gt.mpr hlt).symm
  | negative =>
    cases t with
    | positive => exact congrArg some (compare_lt_iff_lt.mpr hlt).symm
    | negative => exact congrArg some (compare_eq_iff_eq.mpr rfl).symm

theorem compare_eq {x y : Float} (hx : x.isNaN = false) (hy : y.isNaN = false) :
    x.toModel.unpack.compare y.toModel.unpack = some (compare (value x) (value y)) := by
  rcases finite_or_infinite hx with hx | ⟨s, hu⟩
  · rcases finite_or_infinite hy with hy | ⟨t, hv⟩
    · rw [compare_finite hx hy, value_of_finite hx, value_of_finite hy, compare_coe]
    · rw [hv, (compare_infinity t hx).2, value_of_finite hx, value, hv, (compare_extendedValue t _).2]
  · rcases finite_or_infinite hy with hy | ⟨t, hv⟩
    · rw [hu, (compare_infinity s hy).1, value_of_finite hy, value, hu, (compare_extendedValue s _).1]
    · rw [value, value, hu, hv, compare_infinities]

theorem lt_iff {x y : Float} (hx : x.isNaN = false) (hy : y.isNaN = false) :
    x.lt y = true ↔ value x < value y := by
  have hlt : x.lt y = true ↔ x.toModel.unpack.lt y.toModel.unpack = true := decide_eq_true_iff
  rw [hlt, UnpackedFloat.lt, compare_eq hx hy, ← compare_lt_iff_lt]
  simp

theorem le_iff {x y : Float} (hx : x.isNaN = false) (hy : y.isNaN = false) :
    x.le y = true ↔ value x ≤ value y := by
  have hle : x.le y = true ↔ x.toModel.unpack.le y.toModel.unpack = true := decide_eq_true_iff
  rw [hle, UnpackedFloat.le, compare_eq hx hy, ← compare_le_iff_le, Option.any_some, Ordering.isLE_iff_ne_gt]

theorem beq_iff {x y : Float} (hx : x.isNaN = false) (hy : y.isNaN = false) :
    (x == y) = true ↔ value x = value y := by
  have hbeq : (x == y) = x.toModel.unpack.beq y.toModel.unpack := rfl
  rw [hbeq, UnpackedFloat.beq, compare_eq hx hy, ← compare_eq_iff_eq]
  simp

end PlotFormula.Double
