import PlotFormula.Proofs.Double.Packing

/-! # Flat slopes

A flat slope is a zero of either sign, or a NaN where there is no slope. Sums, differences and negations of
flat slopes are flat. So is the product of a flat slope and anything, and its quotient by anything: a zero
stays a zero beside a finite number, and becomes a NaN beside what is none or infinite.
-/
namespace PlotFormula.Double
open Float.Model (Format UnpackedFloat)
open Float.Model.UnpackedFloat

/-- A zero or no number. -/
inductive Vanishes : UnpackedFloat → Prop
  | nan : Vanishes .notANumber
  | zero (s : Sign) : Vanishes (.zero s)

namespace Vanishes
variable {u v : UnpackedFloat}

theorem neg (hu : Vanishes u) : Vanishes u.neg := by
  cases hu with
  | nan => exact .nan
  | zero s => exact .zero (-s)

theorem add (hu : Vanishes u) (hv : Vanishes v) (spec : Format) : Vanishes (u.add spec v) := by
  cases hu with
  | nan => exact .nan
  | zero s =>
    cases hv with
    | nan => exact .nan
    | zero t => cases s <;> cases t <;> exact .zero _

theorem sub (hu : Vanishes u) (hv : Vanishes v) (spec : Format) : Vanishes (u.sub spec v) := by
  cases hu with
  | nan => exact .nan
  | zero s =>
    cases hv with
    | nan => exact .nan
    | zero t => cases s <;> cases t <;> exact .zero _

theorem mul_right (hu : Vanishes u) (v : UnpackedFloat) (spec : Format) : Vanishes (u.mul spec v) := by
  cases hu with
  | nan => exact .nan
  | zero s =>
    cases v with
    | notANumber => exact .nan
    | infinity t => exact .nan
    | zero t => exact .zero (s * t)
    | finite t m q hm => exact .zero (s * t)

theorem mul_left (hv : Vanishes v) (u : UnpackedFloat) (spec : Format) : Vanishes (u.mul spec v) := by
  cases u with
  | notANumber => exact .nan
  | infinity s => cases hv <;> exact .nan
  | zero s =>
    cases hv with
    | nan => exact .nan
    | zero t => exact .zero (s * t)
  | finite s m q hm =>
    cases hv with
    | nan => exact .nan
    | zero t => exact .zero (s * t)

theorem div (hu : Vanishes u) (v : UnpackedFloat) (spec : Format) : Vanishes (u.div spec v) := by
  cases hu with
  | nan => exact .nan
  | zero s =>
    cases v with
    | notANumber => exact .nan
    | infinity t => exact .zero (s / t)
    | zero t => exact .nan
    | finite t m q hm => exact .zero (s / t)

theorem unpack_pack (hu : Vanishes u) : (Float.ofModel (.pack u)).toModel.unpack = u := by
  cases hu with
  | nan => exact unpack_pack_nan
  | zero s => exact unpack_pack_zero s

end Vanishes

/-- A zero of either sign, or a NaN. -/
def IsFlat (x : Float) : Prop := Vanishes x.toModel.unpack

theorem isFlat_iff {x : Float} : IsFlat x ↔ x = 0 ∨ x = -0.0 ∨ x.isNaN = true := by
  have hplus : (0 : Float) = .ofModel (.pack (.zero .positive)) := by decide
  have hminus : (-0.0 : Float) = .ofModel (.pack (.zero .negative)) := by decide
  constructor
  · intro h
    have hpack := ofModel_pack_unpack x
    rw [IsFlat] at h
    generalize hu : x.toModel.unpack = u at h hpack
    cases h with
    | nan =>
      refine .inr (.inr ?_)
      show x.toModel.unpack.isNaN = true
      rw [hu]
      rfl
    | zero s =>
      cases s with
      | positive => exact .inl (hpack.symm.trans hplus.symm)
      | negative => exact .inr (.inl (hpack.symm.trans hminus.symm))
  · rintro (rfl | rfl | hnan)
    · rw [hplus, IsFlat, (Vanishes.zero .positive).unpack_pack]
      exact .zero _
    · rw [hminus, IsFlat, (Vanishes.zero .negative).unpack_pack]
      exact .zero _
    · change x.toModel.unpack.isNaN = true at hnan
      rw [IsFlat]
      cases hu : x.toModel.unpack with
      | notANumber => exact .nan
      | _ => rw [hu] at hnan; cases hnan

theorem isFlat_pack {u : UnpackedFloat} (hu : Vanishes u) : IsFlat (.ofModel (.pack u)) := by
  rw [IsFlat, hu.unpack_pack]
  exact hu

namespace IsFlat
variable {x y : Float}

theorem zero : IsFlat Scalar.zero := isFlat_pack (.zero .positive)

theorem nan : IsFlat Scalar.nan := isFlat_pack .nan

theorem neg (hx : IsFlat x) : IsFlat (-x) := isFlat_pack (Vanishes.neg hx)

theorem add (hx : IsFlat x) (hy : IsFlat y) : IsFlat (x + y) := isFlat_pack (Vanishes.add hx hy _)

theorem sub (hx : IsFlat x) (hy : IsFlat y) : IsFlat (x - y) := isFlat_pack (Vanishes.sub hx hy _)

theorem mul_right (hx : IsFlat x) (y : Float) : IsFlat (x * y) := isFlat_pack (Vanishes.mul_right hx _ _)

theorem mul_left (hx : IsFlat x) (y : Float) : IsFlat (y * x) := isFlat_pack (Vanishes.mul_left hx _ _)

theorem div (hx : IsFlat x) (y : Float) : IsFlat (x / y) := isFlat_pack (Vanishes.div hx _ _)

end IsFlat
end PlotFormula.Double
