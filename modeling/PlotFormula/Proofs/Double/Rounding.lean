import PlotFormula.Proofs.Double.Packing

/-! # Rounding by value

The operations on doubles round a fraction of which the significand, the next bit and a mark for the bits
after it are known. All of this is determined by the fraction, so a number that is rounded twice from
different representations comes to the same double.
-/
namespace PlotFormula.Double
open Float.Model (Format UnpackedFloat totalExponent)
open Float.Model.UnpackedFloat

/-- The significand `n / d`, with its round bit and its sticky bit. -/
def extended (n d : Nat) : ExtendedMantissa where
  mantissa := n / d
  roundBit := decide (d ≤ 2 * (n % d))
  stickyBit := decide (n % d ≠ 0 ∧ 2 * (n % d) ≠ d)

theorem shiftRightOne_extended {n d : Nat} (hd : 0 < d) :
    (extended n d).shiftRightOne = extended n (d * 2) := by
  have hr := Nat.mod_lt n hd
  have hmod : n % (d * 2) = n % d + d * (n / d % 2) := Nat.mod_mul
  rcases Nat.mod_two_eq_zero_or_one (n / d) with hp | hp
  · rw [hp, Nat.mul_zero, Nat.add_zero] at hmod
    simp only [extended, ExtendedMantissa.shiftRightOne, hmod, hp, Nat.div_div_eq_div_mul]
    congr 1
    · simp; omega
    · rw [← Bool.decide_or, decide_eq_decide]
      omega
  · rw [hp, Nat.mul_one] at hmod
    simp only [extended, ExtendedMantissa.shiftRightOne, hmod, hp, Nat.div_div_eq_div_mul]
    congr 1
    · simp; omega
    · rw [← Bool.decide_or, decide_eq_decide]
      omega

theorem shiftRight_extended {n d : Nat} (hd : 0 < d) (k : Nat) :
    extended n d >>> k = extended n (d * 2 ^ k) := by
  show k.repeat ExtendedMantissa.shiftRightOne (extended n d) = _
  induction k with
  | zero => rw [Nat.pow_zero, Nat.mul_one]; rfl
  | succ k ih =>
    rw [Nat.repeat, ih, shiftRightOne_extended (by positivity), Nat.mul_assoc, Nat.pow_succ]

theorem extended_mul {n d k : Nat} (hk : 0 < k) : extended (k * n) (k * d) = extended n d := by
  simp only [extended, Nat.mul_div_mul_left _ _ hk, Nat.mul_mod_mul_left]
  congr 1
  · rw [decide_eq_decide, Nat.mul_left_comm, Nat.mul_le_mul_left_iff hk]
  · rw [decide_eq_decide, Nat.mul_left_comm]
    simp [hk.ne']

theorem extended_congr {n d n' d' : Nat} (hd : 0 < d) (hd' : 0 < d') (h : n * d' = n' * d) :
    extended n d = extended n' d' := by
  rw [← extended_mul hd', ← extended_mul hd (n := n'), Nat.mul_comm d' n, h, Nat.mul_comm n' d,
    Nat.mul_comm d' d]

theorem ofMantissaAndAccuracy_fraction {n d : Nat} (hd : 0 < d) :
    ExtendedMantissa.ofMantissaAndAccuracy (n / d) (accuracyOfFraction (n % d) d) = extended n d := by
  have hr := Nat.mod_lt n hd
  rw [accuracyOfFraction]
  by_cases hzero : n % d = 0
  · rw [if_pos hzero]
    simp [ExtendedMantissa.ofMantissaAndAccuracy, extended, hzero]
    omega
  · rw [if_neg hzero]
    rcases Nat.lt_trichotomy (2 * (n % d)) d with h | h | h
    · rw [Nat.compare_eq_lt.mpr h]
      simp [ExtendedMantissa.ofMantissaAndAccuracy, extended, hzero, h, h.ne]
    · rw [Nat.compare_eq_eq.mpr h]
      simp [ExtendedMantissa.ofMantissaAndAccuracy, extended, h]
    · rw [Nat.compare_eq_gt.mpr h]
      simp [ExtendedMantissa.ofMantissaAndAccuracy, extended, hzero, h.le, h.ne']

theorem ofMantissaAndAccuracy_exact (m : Nat) :
    ExtendedMantissa.ofMantissaAndAccuracy m .exact = extended m 1 := by
  simp [ExtendedMantissa.ofMantissaAndAccuracy, extended, Nat.mod_one]

/-- What is left to do when the significand is rounded: it may have grown by a bit. -/
def finish (s : Sign) (m : Nat) (t : Int) : UnpackedFloat :=
  let r := shiftToTargetExponent Format.binary64 m t .exact
  if h : r.1.mantissa = 0 then .zero s else .finite s r.1.mantissa r.2 (Nat.pos_of_ne_zero h)

def nearest (s : Sign) (n d : Nat) (t : Int) : UnpackedFloat := finish s (extended n d).roundedMantissa t

theorem targetExponent_eq (k : Int) : Format.binary64.targetExponent k = max (k - 53) (-1074) := by
  have hbits : (Format.binary64.mantissaBits : Int) = 53 := by decide
  have hmin : Format.binary64.minExponent = -1074 := by decide
  rw [Format.targetExponent, hbits, hmin]

/-- The exponent `t` suits the number `n / d * 2 ^ t`: the significand takes all its bits, or as many as
there are above the least exponent. -/
structure Suits (n d : Nat) (t : Int) : Prop where
  pos : 0 < d
  low : -1074 ≤ t
  lt : n < 2 ^ 53 * d
  full : t = -1074 ∨ 2 ^ 52 * d ≤ n

/-- A fraction given to enough bits is rounded to the nearest number. -/
theorem roundWithAccuracy_fraction {n d : Nat} {e : Int} (hd : 0 < d)
    (he : e ≤ max ((n / d).log2 + 1 + e - 53) (-1074)) (hsmall : n / d = 0 → e ≤ -1074) (s : Sign) :
    ∃ k : Nat, Suits n (d * 2 ^ k) (e + k) ∧
      roundWithAccuracy Format.binary64 s (n / d) e (accuracyOfFraction (n % d) d) =
        nearest s n (d * 2 ^ k) (e + k) := by
  -- The significand loses `k` bits, no more than the least exponent asks for.
  obtain ⟨k, hk⟩ : ∃ k : Nat, e + k = max ((n / d).log2 + 1 + e - 53) (-1074) :=
    ⟨(max ((n / d).log2 + 1 + e - 53) (-1074) - e).toNat, by omega⟩
  refine ⟨k, ⟨by positivity, by omega, ?_, ?_⟩, ?_⟩
  · have hfloor : n / d < 2 ^ (53 + k) := by
      refine Nat.lt_of_lt_of_le Nat.lt_log2_self (Nat.pow_le_pow_right (by decide) ?_)
      by_cases hzero : n / d = 0
      · rw [hzero, Nat.log2_zero]
        omega
      · omega
    have := (Nat.div_lt_iff_lt_mul hd).mp hfloor
    rwa [Nat.pow_add, Nat.mul_assoc, Nat.mul_comm (2 ^ k) d] at this
  · by_cases hmin : e + k = -1074
    · exact .inl hmin
    · have hne : n / d ≠ 0 := by
        intro hzero
        rw [hzero, Nat.log2_zero] at hk
        have := hsmall hzero
        omega
      have hlog : (n / d).log2 = 52 + k := by omega
      have hfloor := Nat.log2_self_le hne
      have := (Nat.le_div_iff_mul_le hd).mp hfloor
      rw [hlog, Nat.pow_add, Nat.mul_assoc, Nat.mul_comm (2 ^ k) d] at this
      exact .inr this
  · have htarget : Format.binary64.targetExponent (totalExponent (n / d) e) = e + k := by
      rw [targetExponent_eq, totalExponent, hk]
    have hshift : shiftToTargetExponent Format.binary64 (n / d) e (accuracyOfFraction (n % d) d) =
        (extended n (d * 2 ^ k), e + k) := by
      have hamount : (e + k - e).toNat = k := by omega
      simp only [shiftToTargetExponent, shiftToExponent, htarget, hamount, ofMantissaAndAccuracy_fraction hd,
        shiftRight_extended hd]
    rw [roundWithAccuracy, hshift]
    rfl

/-- The number `u` is `v` rounded. -/
def Rounds (s : Sign) (v : ℚ) (u : UnpackedFloat) : Prop :=
  ∃ (n d : Nat) (t : Int), Suits n d t ∧ v = n / d * 2 ^ t ∧ u = nearest s n d t

theorem Suits.value_lt {n d : Nat} {t : Int} (h : Suits n d t) : (n / d * 2 ^ t : ℚ) < 2 ^ (t + 53) := by
  have hd : (0 : ℚ) < d := by exact_mod_cast h.pos
  have hlt : (n : ℚ) < 2 ^ 53 * d := by exact_mod_cast h.lt
  have hfraction : (n / d : ℚ) < 2 ^ 53 := (div_lt_iff₀ hd).mpr hlt
  rw [zpow_add₀ (by norm_num), mul_comm]
  exact mul_lt_mul_of_pos_left hfraction (by positivity)

theorem Suits.le_value {n d : Nat} {t : Int} (h : Suits n d t) (ht : t ≠ -1074) :
    (2 ^ (t + 52) : ℚ) ≤ n / d * 2 ^ t := by
  have hd : (0 : ℚ) < d := by exact_mod_cast h.pos
  have hle : (2 ^ 52 * d : ℚ) ≤ n := by exact_mod_cast h.full.resolve_left ht
  have hfraction : (2 ^ 52 : ℚ) ≤ n / d := (le_div_iff₀ hd).mpr hle
  rw [zpow_add₀ (by norm_num), mul_comm]
  exact mul_le_mul_of_nonneg_right hfraction (by positivity)

theorem Suits.eq {n d n' d' : Nat} {t t' : Int} (h : Suits n d t) (h' : Suits n' d' t')
    (hv : (n / d * 2 ^ t : ℚ) = n' / d' * 2 ^ t') : t = t' := by
  have hle {n d n' d' : Nat} {t t' : Int} (h : Suits n d t) (h' : Suits n' d' t')
      (hv : (n / d * 2 ^ t : ℚ) = n' / d' * 2 ^ t') : t' ≤ t := by
    by_contra hlt
    have hlow := h.low
    have h₁ := h'.le_value (by omega)
    have h₂ : (2 ^ (t + 53) : ℚ) ≤ 2 ^ (t' + 52) := zpow_le_zpow_right₀ (by norm_num) (by omega)
    have h₃ := h.value_lt
    linarith
  exact le_antisymm (hle h' h hv.symm) (hle h h' hv)

theorem Rounds.unique {s : Sign} {v : ℚ} {u u' : UnpackedFloat} (h : Rounds s v u) (h' : Rounds s v u') :
    u = u' := by
  obtain ⟨n, d, t, hsuits, rfl, rfl⟩ := h
  obtain ⟨n', d', t', hsuits', hv, rfl⟩ := h'
  obtain rfl := hsuits.eq hsuits' hv
  have hd : (d : ℚ) ≠ 0 := by exact_mod_cast hsuits.pos.ne'
  have hd' : (d' : ℚ) ≠ 0 := by exact_mod_cast hsuits'.pos.ne'
  have hcross : n * d' = n' * d := by
    have := mul_right_cancel₀ (by positivity) hv
    rw [div_eq_div_iff hd hd'] at this
    exact_mod_cast this
  rw [nearest, nearest, extended_congr hsuits.pos hsuits'.pos hcross]

theorem rounds_fraction {n d : Nat} {e : Int} (hd : 0 < d)
    (he : e ≤ max ((n / d).log2 + 1 + e - 53) (-1074)) (hsmall : n / d = 0 → e ≤ -1074) (s : Sign) :
    Rounds s (n / d * 2 ^ e)
      (roundWithAccuracy Format.binary64 s (n / d) e (accuracyOfFraction (n % d) d)) := by
  obtain ⟨k, hsuits, hround⟩ := roundWithAccuracy_fraction hd he hsmall s
  refine ⟨n, d * 2 ^ k, e + k, hsuits, ?_, hround⟩
  rw [zpow_add₀ (by norm_num), zpow_natCast]
  push_cast
  field_simp

theorem rounds_exact {m : Nat} {e : Int} (he : e ≤ max (m.log2 + 1 + e - 53) (-1074)) (hm : 0 < m) (s : Sign) :
    Rounds s (m * 2 ^ e) (roundWithAccuracy Format.binary64 s m e .exact) := by
  have := rounds_fraction (n := m) (d := 1) (e := e) Nat.one_pos (by rwa [Nat.div_one])
    (fun h => absurd (by rwa [Nat.div_one] at h) hm.ne') s
  rw [Nat.div_one, Nat.mod_one] at this
  simpa [accuracyOfFraction] using this

theorem roundedMantissa_exact (m : Nat) : (extended m 1).roundedMantissa = m := by
  rw [← ofMantissaAndAccuracy_exact]
  rfl

theorem Canonical.suits {m : Nat} {q : Int} (h : Canonical m q) : Suits m 1 q := by
  have hfull : q = -1074 ∨ 2 ^ 52 * 1 ≤ m := by
    rw [Nat.mul_one]
    exact h.full.symm
  exact ⟨Nat.one_pos, h.low, by simpa using h.lt, hfull⟩

theorem finish_of_shift {r m : Nat} {t q : Int}
    (hshift : shiftToTargetExponent Format.binary64 r t .exact = (extended m 1, q)) (hm : 0 < m) (s : Sign) :
    finish s r t = .finite s m q hm := by
  have hmantissa : (extended m 1).mantissa = m := Nat.div_one m
  simp only [finish, hshift, hmantissa, dif_neg hm.ne']

theorem finish_eq {m : Nat} {q : Int} (hlt : m < 2 ^ 53) (hlow : -1074 ≤ q) (hfull : 2 ^ 52 ≤ m ∨ q = -1074)
    (hm : 0 < m) (s : Sign) : finish s m q = .finite s m q hm := by
  have htarget : Format.binary64.targetExponent (totalExponent m q) = q := by
    have hlog : m.log2 < 53 := (Nat.log2_lt hm.ne').mpr hlt
    rw [targetExponent_eq, totalExponent]
    rcases hfull with hfull | rfl
    · have := (Nat.le_log2 hm.ne').mpr hfull
      omega
    · omega
  refine finish_of_shift ?_ hm s
  simp only [shiftToTargetExponent, shiftToExponent, htarget, Int.sub_self, ofMantissaAndAccuracy_exact,
    shiftRight_extended Nat.one_pos]
  simp

theorem Canonical.rounds {m : Nat} {q : Int} (h : Canonical m q) (hm : 0 < m) (s : Sign) :
    Rounds s (m * 2 ^ q) (.finite s m q hm) := by
  refine ⟨m, 1, q, h.suits, by simp, ?_⟩
  rw [nearest, roundedMantissa_exact, finish_eq h.lt h.low h.full]

theorem le_shiftLeft_div {m n j : Nat} (hm : 0 < m) (hn : 0 < n) (h : 53 + n.log2 ≤ m.log2 + j) :
    2 ^ 52 ≤ m <<< j / n := by
  rw [Nat.le_div_iff_mul_le hn, Nat.shiftLeft_eq]
  calc 2 ^ 52 * n ≤ 2 ^ 52 * 2 ^ (n.log2 + 1) := Nat.mul_le_mul_left _ Nat.lt_log2_self.le
    _ = 2 ^ (53 + n.log2) := by ring
    _ ≤ 2 ^ (m.log2 + j) := Nat.pow_le_pow_right (by decide) h
    _ = 2 ^ m.log2 * 2 ^ j := Nat.pow_add ..
    _ ≤ m * 2 ^ j := Nat.mul_le_mul_right _ (Nat.log2_self_le hm.ne')

/-- The quotient is taken with as many bits as the nearest number needs. -/
theorem rounds_quotient {m n : Nat} (hm : 0 < m) (hn : 0 < n) (e f : Int) (s : Sign) :
    Rounds s (m * 2 ^ e / (n * 2 ^ f))
      (let r := divCore Format.binary64 m e n f
       roundWithAccuracy Format.binary64 s r.1 r.2.1 r.2.2) := by
  -- The dividend is shifted by `j` bits before the whole division.
  obtain ⟨j, hj⟩ : ∃ j : Nat,
      min (e - f) (max ((m.log2 + 1 + e : Int) - (n.log2 + 1 + f) - 53) (-1074)) = e - f - j :=
    ⟨(e - f - min (e - f) (max ((m.log2 + 1 + e : Int) - (n.log2 + 1 + f) - 53) (-1074))).toNat, by omega⟩
  have hcore : divCore Format.binary64 m e n f =
      (m <<< j / n, e - f - j, accuracyOfFraction (m <<< j % n) n) := by
    have hshift : (e - f - (e - f - j)).toNat = j := by omega
    simp only [divCore, targetExponent_eq, totalExponent, hj, hshift]
  have hbits : e - f - j ≤ -1074 ∨ 2 ^ 52 ≤ m <<< j / n := by
    by_cases hmin : e - f - j ≤ -1074
    · exact .inl hmin
    · exact .inr (le_shiftLeft_div hm hn (by omega))
  have hfine : e - f - j ≤ max ((m <<< j / n).log2 + 1 + (e - f - j) - 53) (-1074) := by
    rcases hbits with hbits | hbits
    · omega
    · have hne : m <<< j / n ≠ 0 := by omega
      have := (Nat.le_log2 hne).mpr hbits
      omega
  have hsmall : m <<< j / n = 0 → e - f - j ≤ -1074 := by
    intro hzero
    rcases hbits with hbits | hbits
    · exact hbits
    · rw [hzero] at hbits
      exact absurd hbits (by decide)
  have hround := rounds_fraction (n := m <<< j) (d := n) hn hfine hsmall s
  have hvalue : ((m <<< j : Nat) / n * 2 ^ (e - f - j) : ℚ) = m * 2 ^ e / (n * 2 ^ f) := by
    rw [Nat.shiftLeft_eq, zpow_sub₀ (by norm_num), zpow_sub₀ (by norm_num), zpow_natCast]
    push_cast
    field_simp
  rw [hvalue] at hround
  rw [hcore]
  exact hround

theorem rounds_mul {c k : Nat} (hc : 0 < c) :
    Rounds .positive (c * 10 ^ (k : Int))
      (roundWithAccuracy Format.binary64 .positive (c <<< 53 * 10 ^ k) (-53) .exact) := by
  have hm : 2 ^ 53 ≤ c <<< 53 * 10 ^ k := by
    rw [Nat.shiftLeft_eq]
    calc 2 ^ 53 = 1 * 2 ^ 53 * 1 := by ring
      _ ≤ c * 2 ^ 53 * 10 ^ k := Nat.mul_le_mul (Nat.mul_le_mul_right _ hc) (Nat.one_le_pow _ _ (by decide))
  have hpos : 0 < c <<< 53 * 10 ^ k := Nat.lt_of_lt_of_le (by positivity) hm
  have hlog := (Nat.le_log2 hpos.ne').mpr hm
  have hvalue : ((c <<< 53 * 10 ^ k : Nat) * 2 ^ (-53 : Int) : ℚ) = c * 10 ^ (k : Int) := by
    rw [Nat.shiftLeft_eq]
    push_cast
    rw [zpow_neg, zpow_natCast]
    norm_num
    ring
  have := rounds_exact (e := -53) (by omega) hpos .positive
  rwa [hvalue] at this

theorem rounds_div {c k : Nat} (hc : 0 < c) :
    Rounds .positive (c * 10 ^ (-(k : Int)))
      (let r := divCore Format.binary64 c 0 (10 ^ k) 0
       roundWithAccuracy Format.binary64 .positive r.1 r.2.1 r.2.2) := by
  have hround := rounds_quotient hc (by positivity : 0 < 10 ^ k) 0 0 .positive
  have hvalue : (c * 2 ^ (0 : Int) / ((10 ^ k : Nat) * 2 ^ (0 : Int)) : ℚ) = c * 10 ^ (-(k : Int)) := by
    rw [zpow_neg, zpow_natCast, zpow_zero, mul_one, mul_one, div_eq_mul_inv]
    push_cast
    rfl
  rwa [hvalue] at hround

theorem rounds_ofScientific {c : Nat} {e : Int} (hc : 0 < c) (hhigh : e ≤ 2048) (hlow : -(2048 + c.log2) ≤ e) :
    Rounds .positive (c * 10 ^ e) (ofScientific Format.binary64 c e) := by
  have hpower : (2 : Int) ^ Format.binary64.exponentBits = 2048 := by decide
  rw [ofScientific, dif_neg hc.ne', if_neg (by rw [hpower]; omega), if_neg (by rw [hpower]; omega)]
  by_cases he : 0 ≤ e
  · obtain ⟨k, rfl⟩ := Int.eq_ofNat_of_zero_le he
    rw [if_pos he]
    exact rounds_mul hc
  · obtain ⟨k, rfl⟩ := Int.exists_eq_neg_ofNat (Int.le_of_not_le he)
    have hk : (-(-(k : Int))).toNat = k := by omega
    rw [if_neg he]
    simp only [hk]
    exact rounds_div hc

end PlotFormula.Double
