import PlotFormula.Proofs.Double.Rounded

/-! # Arithmetic on doubles

A sum, a difference, a product or a quotient of finite doubles is the exact one, rounded. Once a calculation has
left the finite doubles, sums and products do not come back.
-/
namespace PlotFormula.Double
open Float.Model (Format UnpackedFloat totalExponent)
open Float.Model.UnpackedFloat

/-- Rounding takes a significand of any length, with an exponent of any size. -/
theorem rounds_round {m : Nat} (hm : 0 < m) (e : Int) (s : Sign) :
    Rounds s (m * 2 ^ e) (UnpackedFloat.round Format.binary64 s m e) := by
  obtain ⟨k, hk⟩ := Int.eq_ofNat_of_zero_le (Int.le_max_left 0 (e - max (m.log2 + 1 + e - 53) (-1074)))
  have hcore : UnpackedFloat.round Format.binary64 s m e =
      roundWithAccuracy Format.binary64 s (m <<< k) (e - k) .exact := by
    have hamount : (e - max (m.log2 + 1 + e - 53) (-1074)).toNat = k := by omega
    simp only [UnpackedFloat.round, decreaseExponent, targetExponent_eq, totalExponent, hamount]
  have hpos : 0 < m <<< k := by
    rw [Nat.shiftLeft_eq]
    positivity
  have hlog : m.log2 + k ≤ (m <<< k).log2 := by
    rw [Nat.le_log2 hpos.ne', Nat.shiftLeft_eq, Nat.pow_add]
    exact Nat.mul_le_mul_right _ (Nat.log2_self_le hm.ne')
  have hround := rounds_exact (m := m <<< k) (e := e - k) (by omega) hpos s
  have hvalue : ((m <<< k : Nat) * 2 ^ (e - k) : ℚ) = m * 2 ^ e := by
    rw [Nat.shiftLeft_eq, zpow_sub₀ (by norm_num), zpow_natCast]
    push_cast
    field_simp
  rwa [hvalue, ← hcore] at hround

theorem isRounded_normalize (n e : Int) :
    IsRounded (n * 2 ^ e) (.ofModel (.pack (UnpackedFloat.normalize Format.binary64 n e .positive))) := by
  rcases lt_trichotomy n 0 with hn | rfl | hn
  · have hround := (rounds_round (m := (-n).toNat) (by omega) e .negative).isRounded
    have hcast : (((-n).toNat : Nat) : ℚ) = -n := by
      rw [← Int.cast_natCast, Int.toNat_of_nonneg (by omega), Int.cast_neg]
    rw [UnpackedFloat.normalize, compare_lt_iff_lt.mpr hn]
    rwa [hcast, withSign, neg_mul, neg_neg] at hround
  · rw [UnpackedFloat.normalize, compare_eq_iff_eq.mpr rfl, Int.cast_zero, zero_mul]
    exact isRounded_zero .positive
  · have hround := (rounds_round (m := n.toNat) (by omega) e .positive).isRounded
    have hcast : ((n.toNat : Nat) : ℚ) = n := by
      rw [← Int.cast_natCast, Int.toNat_of_nonneg hn.le]
    rw [UnpackedFloat.normalize, compare_gt_iff_gt.mpr hn]
    rwa [hcast, withSign] at hround

theorem isRounded_ofInt (n : Int) : IsRounded n (.ofModel (.ofInt n)) := by
  have h := isRounded_normalize n 0
  rwa [zpow_zero, mul_one] at h

theorem isRounded_ofNat (n : Nat) : IsRounded n (Scalar.ofNat n : Float) := by
  have h := isRounded_ofInt n
  rwa [Int.cast_natCast] at h

theorem rational_ofNat {n : Nat} (hn : n < 2 ^ 53) :
    (Scalar.ofNat n : Float).isFinite = true ∧ rational (Scalar.ofNat n) = n :=
  (isRounded_ofNat n).exact (representable_nat hn)

theorem ofNat_mono {m n : Nat} (h : m ≤ n) (hn : n < 2 ^ 64) :
    (Scalar.ofNat m : Float).isFinite = true ∧ (Scalar.ofNat n : Float).isFinite = true ∧
      rational (Scalar.ofNat m) ≤ rational (Scalar.ofNat n) := by
  have hpower : Representable (2 ^ 64 : Nat) :=
    ⟨.positive, 1, 64, by decide, by decide, by decide, by norm_num [withSign]⟩
  obtain ⟨hzero, hzero'⟩ := rational_ofNat (n := 0) (by decide)
  obtain ⟨htop, htop'⟩ := (isRounded_ofNat (2 ^ 64)).exact hpower
  have hfinite {k : Nat} (hk : k < 2 ^ 64) : (Scalar.ofNat k : Float).isFinite = true := by
    refine ((isRounded_ofNat k).between hzero htop ?_ ?_).1
    · rw [hzero']
      exact_mod_cast Nat.zero_le k
    · rw [htop']
      exact_mod_cast hk.le
  have hm := hfinite (h.trans_lt hn)
  refine ⟨hm, hfinite hn, (value_le_iff hm (hfinite hn)).mp ?_⟩
  exact (isRounded_ofNat m).mono (isRounded_ofNat n) (by exact_mod_cast h)

theorem decreaseExponent_value {m : Nat} {e t : Int} (h : t ≤ e) :
    ((decreaseExponent m e t).1 * 2 ^ t : ℚ) = m * 2 ^ e := by
  obtain ⟨k, rfl⟩ : ∃ k : Nat, e = t + k := ⟨(e - t).toNat, by omega⟩
  have hamount : (t + k - t).toNat = k := by omega
  simp only [decreaseExponent, hamount]
  rw [Nat.shiftLeft_eq, zpow_add₀ (by norm_num), zpow_natCast]
  push_cast
  ring

/-- A sum of doubles is the exact sum, rounded. Beside a zero a number stays as it is. -/
theorem isRounded_add {x y : Float} (hx : x.isFinite = true) (hy : y.isFinite = true) :
    IsRounded (rational x + rational y) (x + y) := by
  have hsum : x + y = .ofModel (.pack (add Format.binary64 x.toModel.unpack y.toModel.unpack)) := rfl
  rcases finite_cases hx with ⟨s, hu⟩ | ⟨s, m, q, hm, hu⟩
  · rw [rational_zero hu, zero_add]
    rcases finite_cases hy with ⟨s', hv⟩ | ⟨s', m', q', hm', hv⟩
    · rw [rational_zero hv, hsum, hu, hv, add]
      split <;> exact isRounded_zero _
    · have hright : x + y = y := by
        rw [hsum, hu, hv]
        show Float.ofModel (.pack (.finite s' m' q' hm')) = y
        rw [← hv, ofModel_pack_unpack]
      rw [hright]
      exact isRounded_rational hy
  · rcases finite_cases hy with ⟨s', hv⟩ | ⟨s', m', q', hm', hv⟩
    · have hleft : x + y = x := by
        rw [hsum, hu, hv]
        show Float.ofModel (.pack (.finite s m q hm)) = x
        rw [← hu, ofModel_pack_unpack]
      rw [rational_zero hv, add_zero, hleft]
      exact isRounded_rational hx
    · have h := isRounded_normalize (s.apply (decreaseExponent m q (min q q')).1 +
        s'.apply (decreaseExponent m' q' (min q q')).1) (min q q')
      rw [Int.cast_add, add_mul, cast_apply, cast_apply, Int.cast_natCast, Int.cast_natCast, withSign_mul_right,
        withSign_mul_right, decreaseExponent_value (min_le_left q q'), decreaseExponent_value (min_le_right q q')] at h
      rw [rational_finite hu, rational_finite hv, hsum, hu, hv]
      exact h

theorem sub_eq_add_negated (x y : Float) : x - y = x + -y := by
  have hsub (u v : UnpackedFloat) : sub Format.binary64 u v = add Format.binary64 u v.neg := by
    have happly (s : Sign) (n : Int) : (-s).apply n = -s.apply n := by
      cases s
      · exact (neg_neg n).symm
      · rfl
    cases u with
    | finite s m q hm =>
      cases v with
      | finite s' m' q' hm' => simp only [sub, add, neg, happly, Int.sub_eq_add_neg]
      | _ => rfl
    | _ => cases v <;> rfl
  show Float.ofModel (.pack (sub Format.binary64 x.toModel.unpack y.toModel.unpack)) =
    .ofModel (.pack (add Format.binary64 x.toModel.unpack (-y).toModel.unpack))
  rw [hsub, unpack_neg]

theorem rational_neg (x : Float) : rational (-x) = -rational x := by
  rw [rational, rational, unpack_neg]
  cases x.toModel.unpack with
  | finite s m q hm => rw [neg, finiteValue_finite, finiteValue_finite, withSign_neg]
  | _ => exact neg_zero.symm

theorem isFinite_neg (x : Float) : (-x).isFinite = x.isFinite := by
  show (-x).toModel.unpack.isFinite = x.toModel.unpack.isFinite
  rw [unpack_neg]
  cases x.toModel.unpack <;> rfl

theorem isRounded_sub {x y : Float} (hx : x.isFinite = true) (hy : y.isFinite = true) :
    IsRounded (rational x - rational y) (x - y) := by
  have h := isRounded_add hx ((isFinite_neg y).trans hy)
  rwa [rational_neg, ← sub_eq_add_neg, ← sub_eq_add_negated] at h

/-- A product of significands has enough bits, since only at the least exponent are there few of them. -/
theorem Canonical.rounds_mul {m m' : Nat} {q q' : Int} (h : Canonical m q) (h' : Canonical m' q') (hm : 0 < m)
    (hm' : 0 < m') (s : Sign) :
    Rounds s (m * 2 ^ q * (m' * 2 ^ q')) (roundWithAccuracy Format.binary64 s (m * m') (q + q') .exact) := by
  have hpos : 0 < m * m' := Nat.mul_pos hm hm'
  have hfine : q + q' ≤ max ((m * m').log2 + 1 + (q + q') - 53) (-1074) := by
    have hlow := h.low
    have hlow' := h'.low
    by_cases hmin : q + q' ≤ -1074
    · omega
    · have hproduct : 2 ^ 52 ≤ m * m' := by
        rcases h.full with hfull | rfl
        · exact hfull.trans (Nat.le_mul_of_pos_right m hm')
        · exact (h'.full.resolve_right (by omega)).trans (Nat.le_mul_of_pos_left m' hm)
      have := (Nat.le_log2 hpos.ne').mpr hproduct
      omega
  have hround := rounds_exact hfine hpos s
  rw [zpow_add₀ (by norm_num)] at hround
  push_cast at hround
  rwa [mul_mul_mul_comm] at hround

theorem isRounded_mul {x y : Float} (hx : x.isFinite = true) (hy : y.isFinite = true) :
    IsRounded (rational x * rational y) (x * y) := by
  have hproduct : x * y = .ofModel (.pack (mul Format.binary64 x.toModel.unpack y.toModel.unpack)) := rfl
  rcases finite_cases hx with ⟨s, hu⟩ | ⟨s, m, q, hm, hu⟩
  · rw [rational_zero hu, zero_mul]
    rcases finite_cases hy with ⟨s', hv⟩ | ⟨s', m', q', hm', hv⟩ <;> rw [hproduct, hu, hv]
    · exact isRounded_zero (s * s')
    · exact isRounded_zero (s * s')
  · rcases finite_cases hy with ⟨s', hv⟩ | ⟨s', m', q', hm', hv⟩
    · rw [rational_zero hv, mul_zero, hproduct, hu, hv]
      exact isRounded_zero (s * s')
    · have h := ((canonical_of_unpack hu).rounds_mul (canonical_of_unpack hv) hm hm' (s * s')).isRounded
      rw [withSign_mul] at h
      rw [rational_finite hu, rational_finite hv, hproduct, hu, hv]
      exact h

theorem isRounded_div {x y : Float} (hx : x.isFinite = true) (hy : y.isFinite = true) (hzero : rational y ≠ 0) :
    IsRounded (rational x / rational y) (x / y) := by
  have hquotient : x / y = .ofModel (.pack (div Format.binary64 x.toModel.unpack y.toModel.unpack)) := rfl
  rcases finite_cases hy with ⟨s', hv⟩ | ⟨s', m', q', hm', hv⟩
  · exact absurd (rational_zero hv) hzero
  · rcases finite_cases hx with ⟨s, hu⟩ | ⟨s, m, q, hm, hu⟩
    · rw [rational_zero hu, zero_div, hquotient, hu, hv]
      exact isRounded_zero (s / s')
    · have h := (rounds_quotient hm hm' q q' (s / s')).isRounded
      rw [withSign_div] at h
      rw [rational_finite hu, rational_finite hv, hquotient, hu, hv]
      exact h

theorem isFinite_of_pack {u : UnpackedFloat} (h : (Float.ofModel (.pack u)).isFinite = true) :
    u.isFinite = true := by
  change (Float.ofModel (.pack u)).toModel.unpack.isFinite = true at h
  cases u with
  | notANumber => rw [unpack_pack_nan] at h; cases h
  | infinity s => rw [unpack_pack_infinity] at h; cases h
  | zero s => rfl
  | finite s m q hm => rfl

theorem finite_of_add {x y : Float} (h : (x + y).isFinite = true) : x.isFinite = true ∧ y.isFinite = true := by
  have hsum {u v : UnpackedFloat} (h : (add Format.binary64 u v).isFinite = true) :
      u.isFinite = true ∧ v.isFinite = true := by
    cases u with
    | notANumber => cases h
    | infinity s =>
      cases v with
      | infinity s' => rw [add] at h; split at h <;> cases h
      | _ => cases h
    | zero s | finite s m q hm =>
      cases v with
      | notANumber | infinity s' => cases h
      | zero s' | finite s' m' q' hm' => exact ⟨rfl, rfl⟩
  exact hsum (isFinite_of_pack h)

theorem finite_of_mul {x y : Float} (h : (x * y).isFinite = true) : x.isFinite = true ∧ y.isFinite = true := by
  have hproduct {u v : UnpackedFloat} (h : (mul Format.binary64 u v).isFinite = true) :
      u.isFinite = true ∧ v.isFinite = true := by
    cases u with
    | notANumber => cases h
    | infinity s => cases v <;> cases h
    | zero s | finite s m q hm =>
      cases v with
      | notANumber | infinity s' => cases h
      | zero s' | finite s' m' q' hm' => exact ⟨rfl, rfl⟩
  exact hproduct (isFinite_of_pack h)

theorem finite_of_div {x y : Float} (h : (x / y).isFinite = true) : x.isFinite = true := by
  have hquotient {u v : UnpackedFloat} (h : (div Format.binary64 u v).isFinite = true) : u.isFinite = true := by
    cases u with
    | notANumber => cases h
    | infinity s => cases v <;> cases h
    | zero s | finite s m q hm => rfl
  exact hquotient (isFinite_of_pack h)

theorem div_infinity {x y : Float} {s : Sign} (hx : x.toModel.unpack = .infinity s) (hy : y.isFinite = true) :
    ∃ t, (x / y).toModel.unpack = .infinity t := by
  have hquotient : x / y = .ofModel (.pack (div Format.binary64 x.toModel.unpack y.toModel.unpack)) := rfl
  rcases finite_cases hy with ⟨t, hv⟩ | ⟨t, m, q, hm, hv⟩
  · exact ⟨s / t, by rw [hquotient, hx, hv]; exact unpack_pack_infinity (s / t)⟩
  · exact ⟨s / t, by rw [hquotient, hx, hv]; exact unpack_pack_infinity (s / t)⟩

theorem isNaN_add_mul {x y z : Float} {s t : Sign} (hy : y.toModel.unpack = .infinity s)
    (hz : z.toModel.unpack = .zero t) : (x + y * z).isNaN = true := by
  have hproduct : (y * z).toModel.unpack = .notANumber := by
    show (Float.ofModel (.pack (mul Format.binary64 y.toModel.unpack z.toModel.unpack))).toModel.unpack = _
    rw [hy, hz]
    exact unpack_pack_nan
  have hsum : x + y * z = .ofModel (.pack (add Format.binary64 x.toModel.unpack (y * z).toModel.unpack)) := rfl
  have habsorb (u : UnpackedFloat) : add Format.binary64 u .notANumber = .notANumber := by cases u <;> rfl
  rw [hsum, hproduct, habsorb]
  decide

theorem add_infinity {x y : Float} {s : Sign} (hx : x.isFinite = true) (hy : y.toModel.unpack = .infinity s) :
    x + y = y := by
  have hsum : x + y = .ofModel (.pack (add Format.binary64 x.toModel.unpack y.toModel.unpack)) := rfl
  have habsorb : add Format.binary64 x.toModel.unpack (.infinity s) = .infinity s := by
    rcases finite_cases hx with ⟨t, hu⟩ | ⟨t, m, q, hm, hu⟩ <;> rw [hu] <;> rfl
  rw [hsum, hy, habsorb, ← hy, ofModel_pack_unpack]

/-- Adding a finite double keeps the order, also where a sum is infinite. -/
theorem add_mono {x y z : Float} (hx : x.isFinite = true) (hy : y.isNaN = false) (hz : z.isNaN = false)
    (hle : value y ≤ value z) : (x + y).isNaN = false ∧ value (x + y) ≤ value (x + z) := by
  rcases finite_or_infinite hy with hfinite | ⟨s, hinfinite⟩
  · have hsum := isRounded_add hx hfinite
    refine ⟨hsum.number, ?_⟩
    rcases finite_or_infinite hz with hfinite' | ⟨s, hinfinite⟩
    · have hrational := (value_le_iff hfinite hfinite').mp hle
      exact hsum.mono (isRounded_add hx hfinite') (by linarith)
    · have hvalue : value z = extendedValue (.infinity s) := congrArg extendedValue hinfinite
      rw [hvalue] at hle
      rw [add_infinity hx hinfinite, hvalue]
      cases s with
      | positive => exact le_top
      | negative => exact absurd (le_bot_iff.mp hle) ((isFinite_iff hy).mp hfinite).1
  · rw [add_infinity hx hinfinite]
    refine ⟨hy, ?_⟩
    rcases finite_or_infinite hz with hfinite | ⟨s', hinfinite'⟩
    · have hvalue : value y = extendedValue (.infinity s) := congrArg extendedValue hinfinite
      rw [hvalue] at hle ⊢
      cases s with
      | positive => exact absurd (top_le_iff.mp hle) ((isFinite_iff hz).mp hfinite).2
      | negative => exact bot_le
    · rwa [add_infinity hx hinfinite']

end PlotFormula.Double
