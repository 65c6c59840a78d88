import PlotFormula.Catalog.Rule
import PlotFormula.Proofs.Double.Arithmetic

/-! # Rounding half up

The distance of a double to its floor is not always a double: that of a small number below zero is rounded, and
may be rounded to one. But a distance that is below a half is exact, since the number then has no more bits below
its last one than the distance has. Rounding keeps a distance from a half on at or above a half, so the
comparison with a half is never misled.
-/
namespace PlotFormula
open Double (rational Representable)

namespace Double

theorem integer_or_fraction {x : Float} (hx : x.isFinite = true) :
    (floor x = x ∧ ∃ n : Int, rational x = n) ∨
      ∃ (z : Int) (k : Nat), z.natAbs < 2 ^ 53 ∧ k ≤ 1073 ∧ rational x = z / (2 ^ (k + 1) : Nat) ∧
        floor x = .ofModel (.ofInt (z / (2 ^ (k + 1) : Nat))) := by
  rcases finite_cases hx with ⟨s, hu⟩ | ⟨s, m, q, hm, hu⟩
  · refine .inl ⟨by rw [floor, hu], 0, ?_⟩
    rw [rational_zero hu, Int.cast_zero]
  · cases q with
    | ofNat k =>
      refine .inl ⟨by rw [floor, hu], s.apply (m * 2 ^ k), ?_⟩
      rw [rational_finite hu, cast_apply]
      push_cast
      rw [Int.ofNat_eq_natCast, zpow_natCast]
    | negSucc k =>
      have hcanonical := canonical_of_unpack hu
      have hlow := hcanonical.low
      refine .inr ⟨s.apply m, k, ?_, by omega, ?_, ?_⟩
      · have hlt := hcanonical.lt
        have habs : (s.apply (m : Int)).natAbs = m := by
          cases s
          · exact Int.natAbs_neg m
          · rfl
        rwa [habs]
      · rw [rational_finite hu, cast_apply, Int.cast_natCast, div_eq_mul_inv, withSign_mul_right]
        push_cast
        rw [zpow_negSucc]
      · rw [floor, hu]
        rfl

theorem ediv_bounds {z : Int} {k : Nat} (hz : z.natAbs < 2 ^ 53) :
    -2 ^ 52 ≤ z / (2 ^ (k + 1) : Nat) ∧ z / (2 ^ (k + 1) : Nat) < 2 ^ 52 := by
  have hd : 2 ≤ 2 ^ (k + 1) := by
    rw [Nat.pow_succ]
    exact Nat.le_mul_of_pos_left 2 (by positivity)
  generalize 2 ^ (k + 1) = d at hd
  constructor
  · exact Int.le_ediv_of_mul_le (by omega) (by omega)
  · exact Int.ediv_lt_of_lt_mul (by omega) (by omega)

theorem rational_floor {x : Float} (hx : x.isFinite = true) :
    (floor x).isFinite = true ∧ rational (floor x) = ⌊rational x⌋ := by
  rcases integer_or_fraction hx with ⟨hfloor, n, hn⟩ | ⟨z, k, hz, -, hvalue, hfloor⟩
  · rw [hfloor, hn, Int.floor_intCast]
    exact ⟨hx, rfl⟩
  · have hbounds := ediv_bounds (k := k) hz
    rw [hfloor, hvalue, Rat.floor_intCast_div_natCast]
    exact (isRounded_ofInt _).exact (representable_int (by omega))

theorem representable_floor_succ {x : Float} (hx : x.isFinite = true) (hfract : Int.fract (rational x) ≠ 0) :
    Representable (⌊rational x⌋ + 1 : Int) := by
  rcases integer_or_fraction hx with ⟨-, n, hn⟩ | ⟨z, k, hz, -, hvalue, -⟩
  · rw [hn, Int.fract_intCast] at hfract
    exact absurd rfl hfract
  · have hbounds := ediv_bounds (k := k) hz
    rw [hvalue, Rat.floor_intCast_div_natCast]
    exact representable_int (by omega)

/-- A distance to the floor that is below a half is a double. Above zero it has some of the bits of the number
itself. Below zero the number is at least as far from zero as from its floor. -/
theorem representable_fract {x : Float} (hx : x.isFinite = true) (hhalf : Int.fract (rational x) < 1 / 2) :
    Representable (Int.fract (rational x)) := by
  rcases integer_or_fraction hx with ⟨-, n, hn⟩ | ⟨z, k, hz, hk, hvalue, -⟩
  · rw [hn, Int.fract_intCast]
    exact representable_int (by decide : (0 : Int).natAbs < 2 ^ 53)
  · have hd : (0 : Int) < (2 ^ (k + 1) : Nat) := by positivity
    have hdq : (0 : ℚ) < (2 ^ (k + 1) : Nat) := by positivity
    have hmod := Int.emod_nonneg z hd.ne'
    have hdiv := Int.mul_ediv_add_emod z (2 ^ (k + 1) : Nat)
    rw [hvalue, Int.fract_div_intCast_eq_div_intCast_mod] at hhalf ⊢
    rw [div_lt_div_iff₀ hdq (by norm_num)] at hhalf
    have hhalf : z % (2 ^ (k + 1) : Nat) * 2 < (2 ^ (k + 1) : Nat) := by
      rw [one_mul] at hhalf
      exact_mod_cast hhalf
    have hj : (z % (2 ^ (k + 1) : Nat)).toNat < 2 ^ 53 := by
      generalize ((2 ^ (k + 1) : Nat) : Int) = d at hd hmod hdiv hhalf ⊢
      rcases le_or_gt 0 z with hpos | hneg
      · have hquotient := Int.mul_nonneg hd.le (Int.ediv_nonneg hpos hd.le)
        omega
      · have hbelow := Int.le_sub_one_of_lt (Int.ediv_neg_of_neg_of_pos hneg hd)
        have hquotient := Int.mul_le_mul_of_nonneg_left hbelow hd.le
        omega
    refine ⟨.positive, (z % (2 ^ (k + 1) : Nat)).toNat, -(k + 1 : Nat), hj, by omega, by omega, ?_⟩
    have hcast : (((z % (2 ^ (k + 1) : Nat)).toNat : Nat) : ℚ) = (z % (2 ^ (k + 1) : Nat) : Int) := by
      rw [← Int.cast_natCast, Int.toNat_of_nonneg hmod]
    rw [withSign, hcast, zpow_neg, zpow_natCast, div_eq_mul_inv]
    push_cast
    rfl

end Double

namespace Func
open Double (isRounded_sub isRounded_add rational_floor)

theorem rational_half : (0.5 : Float).isFinite = true ∧ rational 0.5 = 1 / 2 := by
  have hpack : (0.5 : Float) = .ofModel (.pack (.finite .positive (2 ^ 52) (-53) (by decide))) := by decide +kernel
  have hcanonical : Double.Canonical (2 ^ 52) (-53) := ⟨by decide, by decide, by decide, .inl le_rfl⟩
  have hunpack := hcanonical.unpack_pack (by decide) .positive
  rw [← hpack] at hunpack
  refine ⟨?_, ?_⟩
  · show (0.5 : Float).toModel.unpack.isFinite = true
    rw [hunpack]
    rfl
  · rw [Double.rational_finite hunpack, Double.withSign]
    norm_num

theorem rational_one : (Scalar.one : Float).isFinite = true ∧ rational Scalar.one = 1 := by
  have h := Double.rational_ofNat (n := 1) (by decide)
  rwa [Nat.cast_one] at h

theorem half_le_iff {x : Float} (hx : x.isFinite = true) :
    (0.5 : Float).le (x - Double.floor x) = true ↔ 1 / 2 ≤ Int.fract (rational x) := by
  obtain ⟨hfinite, hfloor⟩ := rational_floor hx
  obtain ⟨hhalf, hvalue⟩ := rational_half
  have hself := Double.isRounded_rational hhalf
  have hdistance := isRounded_sub hx hfinite
  rw [hvalue] at hself
  rw [hfloor, Int.self_sub_floor] at hdistance
  rw [Double.le_iff hself.number hdistance.number]
  constructor
  · intro hle
    by_contra hlt
    obtain ⟨hfinite, hexact⟩ := hdistance.exact (Double.representable_fract hx (not_le.mp hlt))
    rw [Double.value_le_iff hhalf hfinite, hvalue, hexact] at hle
    exact hlt hle
  · exact hself.mono hdistance

/-- The value is the integer nearest to a double, the greater one of two. -/
theorem round_half_up {x : Float} (hx : x.isFinite = true) :
    ∃ m : Int, (round.value [x]).isFinite = true ∧ rational (round.value [x]) = m ∧
      (m - 1 / 2 : ℚ) ≤ rational x ∧ rational x < m + 1 / 2 := by
  obtain ⟨hfinite, hfloor⟩ := rational_floor hx
  have hvalue : round.value [x] =
      if (0.5 : Float).le (x - Double.floor x) then Double.floor x + Scalar.one else Double.floor x := rfl
  have hsplit := Int.fract_add_floor (rational x)
  have hlt := Int.fract_lt_one (rational x)
  have hnonneg := Int.fract_nonneg (rational x)
  rw [hvalue]
  split
  next hhalf =>
    have hge := (half_le_iff hx).mp hhalf
    have hsum := isRounded_add hfinite rational_one.1
    have hsucc := Double.representable_floor_succ hx (by linarith)
    rw [hfloor, rational_one.2] at hsum
    obtain ⟨hfinite, hexact⟩ := hsum.exact (by exact_mod_cast hsucc)
    refine ⟨⌊rational x⌋ + 1, hfinite, by exact_mod_cast hexact, ?_, ?_⟩ <;> push_cast <;> linarith
  next hhalf =>
    have hlt := not_le.mp fun hge => hhalf ((half_le_iff hx).mpr hge)
    exact ⟨⌊rational x⌋, hfinite, hfloor, by linarith, by linarith⟩

/-- The distance of the greatest double below zero to its floor is rounded to one, and yet zero is nearest. -/
theorem round_half_up_below_zero :
    (-5e-324 : Float).isFinite = true ∧ -5e-324 - Double.floor (-5e-324) = (1 : Float) ∧
      (∃ m : Int, (round.value [(-5e-324 : Float)]).isFinite = true ∧ rational (round.value [-5e-324]) = m ∧
        (m - 1 / 2 : ℚ) ≤ rational (-5e-324) ∧ rational (-5e-324) < m + 1 / 2) ∧
      round.value [(-5e-324 : Float)] = 0 := by
  have hfinite : (-5e-324 : Float).isFinite = true := by decide +kernel
  exact ⟨hfinite, by decide +kernel, round_half_up hfinite, by decide +kernel⟩

end Func
end PlotFormula
