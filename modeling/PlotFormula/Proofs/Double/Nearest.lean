import PlotFormula.Double.Decimal
import PlotFormula.Proofs.Double.Rounding

/-! # The double nearest to a decimal

A decimal is read as the double nearest to its value. The reader takes very large decimals as infinite and
very small ones as zero without a calculation. Rounding gives the same there, so decimals of one value
are read as one double.
-/
namespace PlotFormula.Double
open Float.Model (Format UnpackedFloat totalExponent)
open Float.Model.UnpackedFloat

theorem shiftToTargetExponent_exact (m : Nat) (t : Int) :
    ∃ k : Nat, (k : Int) = max 0 (max (m.log2 + 1 + t - 53) (-1074) - t) ∧
      shiftToTargetExponent Format.binary64 m t .exact = (extended m (2 ^ k), t + k) := by
  obtain ⟨k, hk⟩ := Int.eq_ofNat_of_zero_le (Int.le_max_left 0 (max (m.log2 + 1 + t - 53) (-1074) - t))
  have hamount : (max (m.log2 + 1 + t - 53) (-1074) - t).toNat = k := by omega
  refine ⟨k, hk.symm, ?_⟩
  simp only [shiftToTargetExponent, shiftToExponent, targetExponent_eq, totalExponent, hamount,
    ofMantissaAndAccuracy_exact, shiftRight_extended Nat.one_pos, Nat.one_mul]

theorem finish_full {m : Nat} {t : Int} (hm : 2 ^ 52 ≤ m) (ht : -1074 ≤ t) (s : Sign) :
    ∃ (m' : Nat) (q : Int) (h : 0 < m'), t ≤ q ∧ finish s m t = .finite s m' q h := by
  have hpos : m ≠ 0 := by omega
  have hlog := (Nat.le_log2 hpos).mpr hm
  obtain ⟨k, hk, hshift⟩ := shiftToTargetExponent_exact m t
  have hle : 2 ^ k ≤ m :=
    calc 2 ^ k ≤ 2 ^ m.log2 := Nat.pow_le_pow_right (by decide) (by omega)
      _ ≤ m := Nat.log2_self_le hpos
  have hmantissa : 0 < (extended m (2 ^ k)).mantissa := Nat.div_pos hle (by positivity)
  refine ⟨_, t + k, hmantissa, by omega, ?_⟩
  simp only [finish, hshift, dif_neg hmantissa.ne']

theorem finish_zero (t : Int) (s : Sign) : finish s 0 t = .zero s := by
  obtain ⟨k, -, hshift⟩ := shiftToTargetExponent_exact 0 t
  have hmantissa : (extended 0 (2 ^ k)).mantissa = 0 := Nat.zero_div _
  simp only [finish, hshift, hmantissa, dif_pos]

theorem le_roundedMantissa (n d : Nat) : n / d ≤ (extended n d).roundedMantissa := by
  show (extended n d).mantissa ≤ _
  rw [ExtendedMantissa.roundedMantissa, Accuracy.roundToNearestEven.eq_def]
  split <;> omega

theorem roundedMantissa_half {n d : Nat} (h : 2 * n < d) : (extended n d).roundedMantissa = 0 := by
  have hlt : n < d := by omega
  have hdiv : n / d = 0 := Nat.div_eq_of_lt hlt
  have hmod : n % d = n := Nat.mod_eq_of_lt hlt
  have hround : ¬ d ≤ 2 * n := by omega
  by_cases hzero : n = 0
  · have hd : d ≠ 0 := by omega
    simp [ExtendedMantissa.roundedMantissa, extended, hzero, hd, ExtendedMantissa.accuracy,
      Accuracy.roundToNearestEven]
  · simp [ExtendedMantissa.roundedMantissa, extended, hdiv, hmod, hround, hzero, h.ne,
      ExtendedMantissa.accuracy, Accuracy.roundToNearestEven]

/-- A number from the first power of two that is too large is infinite. -/
theorem Rounds.infinite {s : Sign} {v : ℚ} {u : UnpackedFloat} (h : Rounds s v u) (hv : 2 ^ 1024 ≤ v) :
    Float.Model.pack u = .pack (.infinity s) := by
  obtain ⟨n, d, t, hsuits, rfl, rfl⟩ := h
  have ht : 1024 < t + 53 := by
    have hlt : (2 ^ (1024 : Int) : ℚ) < 2 ^ (t + 53) := lt_of_le_of_lt (by exact_mod_cast hv) hsuits.value_lt
    exact (zpow_lt_zpow_iff_right₀ (by norm_num)).mp hlt
  have hfull : 2 ^ 52 ≤ (extended n d).roundedMantissa := by
    have hle := hsuits.full.resolve_left (by omega)
    exact ((Nat.le_div_iff_mul_le hsuits.pos).mpr hle).trans (le_roundedMantissa n d)
  obtain ⟨m, q, hm, hq, hfinish⟩ := finish_full hfull hsuits.low s
  rw [nearest, hfinish, pack_infinite (by omega)]

theorem Rounds.zero {s : Sign} {v : ℚ} {u : UnpackedFloat} (h : Rounds s v u) (hv : v < 2 ^ (-1075 : Int)) :
    u = .zero s := by
  obtain ⟨n, d, t, hsuits, rfl, rfl⟩ := h
  have ht : t = -1074 := by
    by_contra hne
    have hlow := hsuits.low
    have hlt : (2 ^ (t + 52) : ℚ) < 2 ^ (-1075 : Int) := lt_of_le_of_lt (hsuits.le_value hne) hv
    have := (zpow_lt_zpow_iff_right₀ (by norm_num)).mp hlt
    omega
  have hhalf : 2 * n < d := by
    have hd : (0 : ℚ) < d := by exact_mod_cast hsuits.pos
    have hsplit : (2 ^ (-1075 : Int) : ℚ) = 1 / 2 * 2 ^ (-1074 : Int) := by
      rw [show (-1075 : Int) = -1 + -1074 by decide, zpow_add₀ (by norm_num)]
      norm_num
    rw [ht, hsplit] at hv
    have hfraction : (n / d : ℚ) < 1 / 2 := lt_of_mul_lt_mul_right hv (by positivity)
    rw [div_lt_div_iff₀ hd (by norm_num)] at hfraction
    have : (n * 2 : ℚ) < d := by linarith
    have hcast : n * 2 < d := by exact_mod_cast this
    omega
  rw [nearest, roundedMantissa_half hhalf, finish_zero]

/-- The double `x` is the one nearest to the positive number `v`. -/
def IsNearest (v : ℚ) (x : Float) : Prop :=
  ∃ u, Rounds .positive v u ∧ x = .ofModel (.pack u)

theorem IsNearest.unique {v : ℚ} {x y : Float} (hx : IsNearest v x) (hy : IsNearest v y) : x = y := by
  obtain ⟨u, hu, rfl⟩ := hx
  obtain ⟨w, hw, rfl⟩ := hy
  rw [hu.unique hw]

theorem isNearest_of_finite {x : Float} {m : Nat} {q : Int} {h : 0 < m}
    (hx : x.toModel.unpack = .finite .positive m q h) : IsNearest (m * 2 ^ q) x := by
  refine ⟨_, (canonical_of_unpack hx).rounds h .positive, ?_⟩
  rw [← hx, ofModel_pack_unpack]

def valueOf (d : Decimal) : ℚ := d.coefficient * 10 ^ d.exponent

/-- A positive decimal is read as the nearest double. -/
theorem isNearest_toDouble {d : Decimal} (hd : 0 < d.coefficient) : IsNearest (valueOf d) d.toDouble := by
  obtain ⟨c, e⟩ := d
  have hc : (1 : ℚ) ≤ c := by exact_mod_cast hd
  have hpower : (2 : Int) ^ Format.binary64.exponentBits = 2048 := by decide
  by_cases hhigh : 2048 < e
  · -- the value is at least `2 ^ 2049`, and the reader does not compute it
    obtain ⟨k, rfl⟩ := Int.eq_ofNat_of_zero_le (by omega : 0 ≤ e)
    refine ⟨_, rounds_mul hd, ?_⟩
    have hlarge : (2 ^ 1024 : ℚ) ≤ c * 10 ^ (k : Int) :=
      calc (2 ^ 1024 : ℚ) ≤ 2 ^ k := pow_le_pow_right₀ (by norm_num) (by omega)
        _ ≤ 10 ^ k := pow_le_pow_left₀ (by norm_num) (by norm_num) k
        _ ≤ c * 10 ^ k := le_mul_of_one_le_left (by positivity) hc
        _ = c * 10 ^ (k : Int) := by rw [zpow_natCast]
    rw [(rounds_mul hd).infinite hlarge]
    show Float.ofModel (.pack (ofScientific Format.binary64 c k)) = _
    rw [ofScientific, dif_neg hd.ne', if_pos (by rw [hpower]; exact hhigh)]
  · by_cases hlow : e < -(2048 + c.log2)
    · obtain ⟨k, rfl⟩ := Int.exists_eq_neg_ofNat (by omega : e ≤ 0)
      refine ⟨_, rounds_div hd, ?_⟩
      have hsmall : (c * 10 ^ (-(k : Int)) : ℚ) < 2 ^ (-1075 : Int) := by
        have hlt : (c : ℚ) < 2 ^ (c.log2 + 1) := by exact_mod_cast Nat.lt_log2_self
        have hten : (10 ^ (-(k : Int)) : ℚ) ≤ 2 ^ (-(k : Int)) := by
          rw [zpow_neg, zpow_neg, zpow_natCast, zpow_natCast]
          exact inv_anti₀ (by positivity) (pow_le_pow_left₀ (by norm_num) (by norm_num) k)
        calc (c * 10 ^ (-(k : Int)) : ℚ) < 2 ^ (c.log2 + 1) * 10 ^ (-(k : Int)) :=
              mul_lt_mul_of_pos_right hlt (by positivity)
          _ ≤ 2 ^ (c.log2 + 1) * 2 ^ (-(k : Int)) := mul_le_mul_of_nonneg_left hten (by positivity)
          _ = 2 ^ ((c.log2 + 1 : Nat) + -(k : Int)) := by rw [zpow_add₀ (by norm_num), zpow_natCast]
          _ ≤ 2 ^ (-1075 : Int) := zpow_le_zpow_right₀ (by norm_num) (by omega)
      rw [(rounds_div hd).zero hsmall]
      show Float.ofModel (.pack (ofScientific Format.binary64 c (-(k : Int)))) = _
      rw [ofScientific, dif_neg hd.ne', if_neg (by rw [hpower]; exact hhigh), if_pos (by rw [hpower]; exact hlow)]
    · exact ⟨_, rounds_ofScientific hd (Int.not_lt.mp hhigh) (Int.not_lt.mp hlow), rfl⟩

theorem toDouble_congr {d d' : Decimal} (hd : 0 < d.coefficient) (h : valueOf d = valueOf d') :
    d.toDouble = d'.toDouble := by
  have hpos : 0 < d'.coefficient := by
    have hc : (0 : ℚ) < d.coefficient := by exact_mod_cast hd
    have hv : 0 < valueOf d' := by
      rw [← h, valueOf]
      positivity
    by_contra hle
    have hzero : d'.coefficient = 0 := by omega
    rw [valueOf, hzero, Nat.cast_zero, zero_mul] at hv
    exact hv.false
  have hnearest := isNearest_toDouble hd
  rw [h] at hnearest
  exact hnearest.unique (isNearest_toDouble hpos)

end PlotFormula.Double
