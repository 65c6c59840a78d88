import PlotFormula.Proofs.Double.Order
import PlotFormula.Proofs.Double.Nearest

/-! # Rounded doubles

Rounding keeps the order of numbers and does not move a number that a double can have, and this is all that the
proofs about calculations use of it. From the first power of two that is too large on, a rounded number is infinite.
-/
namespace PlotFormula.Double
open Float.Model (Format UnpackedFloat)
open Float.Model.UnpackedFloat

/-- The value of a finite double. -/
def rational (x : Float) : ℚ := finiteValue x.toModel.unpack

def withSign : Sign → ℚ → ℚ
  | .positive, v => v
  | .negative, v => -v

theorem withSign_neg (s : Sign) (v : ℚ) : withSign (-s) v = -withSign s v := by
  cases s
  · exact (neg_neg v).symm
  · rfl

theorem withSign_mul (s t : Sign) (v w : ℚ) : withSign (s * t) (v * w) = withSign s v * withSign t w := by
  cases s <;> cases t
  · exact (neg_mul_neg v w).symm
  · exact (neg_mul v w).symm
  · exact (mul_neg v w).symm
  · rfl

theorem withSign_mul_right (s : Sign) (v w : ℚ) : withSign s v * w = withSign s (v * w) := by
  cases s
  · exact neg_mul v w
  · rfl

theorem withSign_div (s t : Sign) (v w : ℚ) : withSign (s / t) (v / w) = withSign s v / withSign t w := by
  cases s <;> cases t
  · exact (neg_div_neg_eq v w).symm
  · exact (neg_div w v).symm
  · exact (div_neg v).symm
  · rfl

theorem withSign_zero (s : Sign) : withSign s 0 = 0 := by
  cases s
  · exact neg_zero
  · rfl

theorem abs_withSign (s : Sign) {v : ℚ} (hv : 0 ≤ v) : |withSign s v| = v := by
  cases s
  · rw [withSign, abs_neg, abs_of_nonneg hv]
  · exact abs_of_nonneg hv

theorem cast_apply (s : Sign) (n : Int) : ((s.apply n : Int) : ℚ) = withSign s n := by
  cases s
  · exact Int.cast_neg n
  · rfl

theorem finiteValue_finite (s : Sign) {m : Nat} {q : Int} (h : 0 < m) :
    finiteValue (.finite s m q h) = withSign s (m * 2 ^ q) := by
  cases s <;> rfl

theorem roundedMantissa_eq (n d : Nat) : (extended n d).roundedMantissa =
    if 2 * (n % d) < d then n / d else if 2 * (n % d) = d then n / d + n / d % 2 else n / d + 1 := by
  have hround (b c : Bool) : ExtendedMantissa.roundedMantissa ⟨n / d, b, c⟩ =
      if b = false then n / d else if c = false then n / d + n / d % 2 else n / d + 1 := by
    cases b <;> cases c <;> rfl
  rw [extended, hround]
  by_cases hlt : 2 * (n % d) < d
  · rw [if_pos (by simpa using hlt), if_pos hlt]
  · rw [if_neg (by simpa using hlt), if_neg hlt]
    by_cases heq : 2 * (n % d) = d
    · rw [if_pos (by simp [heq]), if_pos heq]
    · have hzero : n % d ≠ 0 := by
        intro hzero
        rw [hzero, Nat.mul_zero] at hlt heq
        exact heq (Nat.le_zero.mp (Nat.not_lt.mp hlt)).symm
      rw [if_neg (by simp [hzero, heq]), if_neg heq]

theorem roundedMantissa_le (n d : Nat) : (extended n d).roundedMantissa ≤ n / d + 1 := by
  rw [roundedMantissa_eq]
  split_ifs <;> omega

theorem roundedMantissa_mono {n n' d : Nat} (h : n ≤ n') :
    (extended n d).roundedMantissa ≤ (extended n' d).roundedMantissa := by
  rcases Nat.lt_or_eq_of_le (Nat.div_le_div_right (c := d) h) with hdiv | hdiv
  · exact (roundedMantissa_le n d).trans (hdiv.trans_le (le_roundedMantissa n' d))
  · have hrest : n % d ≤ n' % d := by
      have hn := Nat.div_add_mod n d
      have hn' := Nat.div_add_mod n' d
      rw [← hdiv] at hn'
      omega
    rw [roundedMantissa_eq, roundedMantissa_eq, ← hdiv]
    split_ifs <;> omega

theorem Suits.roundedMantissa_le {n d : Nat} {t : Int} (h : Suits n d t) :
    (extended n d).roundedMantissa ≤ 2 ^ 53 :=
  (Double.roundedMantissa_le n d).trans ((Nat.div_lt_iff_lt_mul h.pos).mpr h.lt)

theorem Suits.le_roundedMantissa {n d : Nat} {t : Int} (h : Suits n d t) :
    t = -1074 ∨ 2 ^ 52 ≤ (extended n d).roundedMantissa :=
  h.full.imp_right fun hfull =>
    ((Nat.le_div_iff_mul_le h.pos).mpr hfull).trans (Double.le_roundedMantissa n d)

theorem two_pow_mul_zpow (j : Nat) (q : Int) : (2 ^ j * 2 ^ q : ℚ) = 2 ^ (j + q) := by
  rw [zpow_add₀ (by norm_num), zpow_natCast]

theorem significand_lt {j : Nat} (hj : j < 2 ^ 53) (q : Int) : (j * 2 ^ q : ℚ) < 2 ^ (53 + q) :=
  calc (j * 2 ^ q : ℚ) < 2 ^ 53 * 2 ^ q := mul_lt_mul_of_pos_right (by exact_mod_cast hj) (by positivity)
    _ = 2 ^ (53 + q) := two_pow_mul_zpow 53 q

/-- Rounding keeps the order. Where the exponents differ, a power of two lies between the numbers, and it lies
between the rounded ones too. -/
theorem Suits.rounded_mono {n d n' d' : Nat} {t t' : Int} (h : Suits n d t) (h' : Suits n' d' t')
    (hle : (n / d * 2 ^ t : ℚ) ≤ n' / d' * 2 ^ t') :
    ((extended n d).roundedMantissa * 2 ^ t : ℚ) ≤ (extended n' d').roundedMantissa * 2 ^ t' := by
  have hd : (0 : ℚ) < d := by exact_mod_cast h.pos
  have hd' : (0 : ℚ) < d' := by exact_mod_cast h'.pos
  rcases lt_trichotomy t t' with ht | rfl | ht
  · have hbelow : ((extended n d).roundedMantissa : ℚ) ≤ 2 ^ 53 := by exact_mod_cast h.roundedMantissa_le
    have habove : (2 ^ 52 : ℚ) ≤ (extended n' d').roundedMantissa := by
      have hlow := h.low
      exact_mod_cast h'.le_roundedMantissa.resolve_left (by omega)
    calc ((extended n d).roundedMantissa * 2 ^ t : ℚ) ≤ 2 ^ 53 * 2 ^ t :=
          mul_le_mul_of_nonneg_right hbelow (by positivity)
      _ = 2 ^ (53 + t) := two_pow_mul_zpow 53 t
      _ ≤ 2 ^ (52 + t') := zpow_le_zpow_right₀ (by norm_num) (by omega)
      _ = 2 ^ 52 * 2 ^ t' := (two_pow_mul_zpow 52 t').symm
      _ ≤ (extended n' d').roundedMantissa * 2 ^ t' := mul_le_mul_of_nonneg_right habove (by positivity)
  · have hfraction := le_of_mul_le_mul_right hle (by positivity)
    rw [div_le_div_iff₀ hd hd'] at hfraction
    have hcross : n * d' ≤ n' * d := by exact_mod_cast hfraction
    have hpos := Nat.mul_pos h.pos h'.pos
    have hleft : extended (n * d') (d * d') = extended n d := extended_congr hpos h.pos (by ring)
    have hright : extended (n' * d) (d * d') = extended n' d' := extended_congr hpos h'.pos (by ring)
    have hround := roundedMantissa_mono (d := d * d') hcross
    rw [hleft, hright] at hround
    exact mul_le_mul_of_nonneg_right (by exact_mod_cast hround) (by positivity)
  · have hpower : (2 ^ (t' + 53) : ℚ) ≤ 2 ^ (t + 52) := zpow_le_zpow_right₀ (by norm_num) (by omega)
    have hlow := h'.low
    have habove := h.le_value (by omega)
    exact absurd (hle.trans_lt h'.value_lt) (not_lt.mpr (hpower.trans habove))

theorem Suits.rounded_exact {n d j : Nat} {t q : Int} (h : Suits n d t) (hj : j < 2 ^ 53) (hq : -1074 ≤ q)
    (hv : (n / d * 2 ^ t : ℚ) = j * 2 ^ q) : ((extended n d).roundedMantissa * 2 ^ t : ℚ) = j * 2 ^ q := by
  have hd : (d : ℚ) ≠ 0 := by exact_mod_cast h.pos.ne'
  have hle : t ≤ q := by
    by_contra hlt
    have hvalue := h.le_value (by omega)
    have hlarge : (2 ^ (53 + q) : ℚ) ≤ 2 ^ (t + 52) := zpow_le_zpow_right₀ (by norm_num) (by omega)
    rw [hv] at hvalue
    exact absurd (hlarge.trans hvalue) (not_le.mpr (significand_lt hj q))
  obtain ⟨k, rfl⟩ : ∃ k : Nat, q = t + k := ⟨(q - t).toNat, by omega⟩
  rw [zpow_add₀ (by norm_num), zpow_natCast] at hv ⊢
  have hinteger : (n / d : ℚ) = (j * 2 ^ k : Nat) := by
    refine mul_right_cancel₀ (b := (2 ^ t : ℚ)) (by positivity) (hv.trans ?_)
    push_cast
    ring
  rw [div_eq_iff hd] at hinteger
  have hcross : n * 1 = j * 2 ^ k * d := by
    rw [Nat.mul_one]
    exact_mod_cast hinteger
  rw [extended_congr h.pos Nat.one_pos hcross, roundedMantissa_exact]
  push_cast
  ring

theorem Suits.rounded_zero {n d : Nat} {t : Int} (h : Suits n d t) (hv : (n / d * 2 ^ t : ℚ) = 0) :
    ((extended n d).roundedMantissa * 2 ^ t : ℚ) = 0 := by
  have hzero : ((0 : Nat) * 2 ^ (0 : Int) : ℚ) = 0 := by simp
  rw [h.rounded_exact (by decide) (by decide) (hv.trans hzero.symm), hzero]

/-- The number `v` is rounded to `w`, were there no greatest exponent. -/
def Nears (v w : ℚ) : Prop :=
  ∃ (s : Sign) (n d : Nat) (t : Int), Suits n d t ∧ v = withSign s (n / d * 2 ^ t) ∧
    w = withSign s ((extended n d).roundedMantissa * 2 ^ t)

theorem Nears.mono {v v' w w' : ℚ} (h : Nears v w) (h' : Nears v' w') (hle : v ≤ v') : w ≤ w' := by
  obtain ⟨s, n, d, t, hsuits, rfl, rfl⟩ := h
  obtain ⟨s', n', d', t', hsuits', rfl, rfl⟩ := h'
  have hv : (0 : ℚ) ≤ n / d * 2 ^ t := by positivity
  have hv' : (0 : ℚ) ≤ n' / d' * 2 ^ t' := by positivity
  have hw : (0 : ℚ) ≤ (extended n d).roundedMantissa * 2 ^ t := by positivity
  have hw' : (0 : ℚ) ≤ (extended n' d').roundedMantissa * 2 ^ t' := by positivity
  cases s with
  | positive =>
    cases s' with
    | positive => exact hsuits.rounded_mono hsuits' hle
    | negative =>
      simp only [withSign] at hle ⊢
      rw [hsuits.rounded_zero (by linarith), hsuits'.rounded_zero (by linarith), neg_zero]
  | negative =>
    cases s' with
    | positive =>
      simp only [withSign]
      linarith
    | negative =>
      simp only [withSign] at hle ⊢
      exact neg_le_neg (hsuits'.rounded_mono hsuits (neg_le_neg_iff.mp hle))

/-- The numbers that a double can have. -/
def Representable (v : ℚ) : Prop :=
  ∃ (s : Sign) (j : Nat) (q : Int), j < 2 ^ 53 ∧ -1074 ≤ q ∧ q ≤ 971 ∧ v = withSign s (j * 2 ^ q)

theorem representable_int {n : Int} (h : n.natAbs < 2 ^ 53) : Representable n := by
  rcases le_total 0 n with hn | hn
  · refine ⟨.positive, n.natAbs, 0, h, by decide, by decide, ?_⟩
    rw [withSign, zpow_zero, mul_one, Nat.cast_natAbs, abs_of_nonneg hn]
  · refine ⟨.negative, n.natAbs, 0, h, by decide, by decide, ?_⟩
    rw [withSign, zpow_zero, mul_one, Nat.cast_natAbs, abs_of_nonpos hn, Int.cast_neg, neg_neg]

theorem representable_nat {n : Nat} (h : n < 2 ^ 53) : Representable n :=
  ⟨.positive, n, 0, h, by decide, by decide, by rw [withSign, zpow_zero, mul_one]⟩

theorem Nears.exact {v w : ℚ} (h : Nears v w) (hv : Representable v) : w = v := by
  obtain ⟨s, n, d, t, hsuits, rfl, rfl⟩ := h
  obtain ⟨s', j, q, hj, hlow, -, heq⟩ := hv
  have hpos : (0 : ℚ) ≤ n / d * 2 ^ t := by positivity
  have hpos' : (0 : ℚ) ≤ j * 2 ^ q := by positivity
  have hmagnitude : (n / d * 2 ^ t : ℚ) = j * 2 ^ q := by rw [← abs_withSign s hpos, heq, abs_withSign s' hpos']
  rw [hsuits.rounded_exact hj hlow hmagnitude, hmagnitude]

/-- A number in the range of the doubles, or an infinity. -/
def clip (w : ℚ) : WithBot (WithTop ℚ) :=
  if 2 ^ 1024 ≤ w then ⊤ else if w ≤ -2 ^ 1024 then ⊥ else ((w : WithTop ℚ) : WithBot (WithTop ℚ))

theorem clip_mono {w w' : ℚ} (h : w ≤ w') : clip w ≤ clip w' := by
  unfold clip
  by_cases htop : 2 ^ 1024 ≤ w'
  · rw [if_pos htop]
    exact le_top
  · rw [if_neg htop, if_neg fun hle => htop (hle.trans h)]
    by_cases hbot : w ≤ -2 ^ 1024
    · rw [if_pos hbot]
      exact bot_le
    · rw [if_neg hbot, if_neg fun hle => hbot (h.trans hle)]
      exact_mod_cast h

theorem clip_of_abs_lt {w : ℚ} (h : |w| < 2 ^ 1024) : clip w = ((w : WithTop ℚ) : WithBot (WithTop ℚ)) := by
  rw [clip, if_neg (not_le.mpr (abs_lt.mp h).2), if_neg (not_le.mpr (abs_lt.mp h).1)]

/-- The double `x` is the number `w`, or the infinity of its sign where `w` is out of range. -/
structure HasValue (x : Float) (w : ℚ) : Prop where
  number : x.isNaN = false
  value_eq : value x = clip w

/-- The double `x` is the number `v`, rounded. -/
def IsRounded (v : ℚ) (x : Float) : Prop := ∃ w, Nears v w ∧ HasValue x w

theorem IsRounded.number {v : ℚ} {x : Float} (h : IsRounded v x) : x.isNaN = false := by
  obtain ⟨w, -, hx⟩ := h
  exact hx.number

theorem IsRounded.mono {v v' : ℚ} {x y : Float} (h : IsRounded v x) (h' : IsRounded v' y) (hle : v ≤ v') :
    value x ≤ value y := by
  obtain ⟨w, hnear, hx⟩ := h
  obtain ⟨w', hnear', hy⟩ := h'
  rw [hx.value_eq, hy.value_eq]
  exact clip_mono (hnear.mono hnear' hle)

theorem isFinite_iff {x : Float} (hx : x.isNaN = false) : x.isFinite = true ↔ value x ≠ ⊥ ∧ value x ≠ ⊤ := by
  rcases finite_or_infinite hx with hfinite | ⟨s, hu⟩
  · rw [value_of_finite hfinite]
    refine iff_of_true hfinite ⟨WithBot.coe_ne_bot, ?_⟩
    exact fun htop => WithTop.coe_ne_top (WithBot.coe_injective htop)
  · have hinfinite : x.isFinite = false := by
      show x.toModel.unpack.isFinite = false
      rw [hu]
      rfl
    rw [hinfinite, value, hu]
    cases s <;> simp [extendedValue]

theorem rational_of_value {x : Float} {v : ℚ} (hx : x.isNaN = false)
    (hv : value x = ((v : WithTop ℚ) : WithBot (WithTop ℚ))) : x.isFinite = true ∧ rational x = v := by
  have hfinite : x.isFinite = true := by
    rw [isFinite_iff hx, hv]
    exact ⟨WithBot.coe_ne_bot, fun htop => WithTop.coe_ne_top (WithBot.coe_injective htop)⟩
  rw [value_of_finite hfinite] at hv
  exact ⟨hfinite, WithTop.coe_injective (WithBot.coe_injective hv)⟩

theorem Representable.abs_lt {v : ℚ} (h : Representable v) : |v| < 2 ^ 1024 := by
  obtain ⟨s, j, q, hj, -, hq, rfl⟩ := h
  rw [abs_withSign s (by positivity)]
  calc (j * 2 ^ q : ℚ) < 2 ^ (53 + q) := significand_lt hj q
    _ ≤ 2 ^ (1024 : Int) := zpow_le_zpow_right₀ (by norm_num) (by omega)
    _ = 2 ^ 1024 := zpow_natCast 2 1024

theorem IsRounded.exact {v : ℚ} {x : Float} (h : IsRounded v x) (hv : Representable v) :
    x.isFinite = true ∧ rational x = v := by
  obtain ⟨w, hnear, hx⟩ := h
  obtain rfl := hnear.exact hv
  exact rational_of_value hx.number (hx.value_eq.trans (clip_of_abs_lt hv.abs_lt))

theorem hasValue_zero (s : Sign) : HasValue (.ofModel (.pack (.zero s))) 0 where
  number := by
    show (Float.ofModel (.pack (.zero s))).toModel.unpack.isNaN = false
    rw [unpack_pack_zero]
    rfl
  value_eq := by
    have hzero : |(0 : ℚ)| < 2 ^ 1024 := by rw [abs_zero]; positivity
    rw [clip_of_abs_lt hzero, value, unpack_pack_zero]
    rfl

theorem hasValue_infinity {s : Sign} {v : ℚ} (hv : 2 ^ 1024 ≤ v) :
    HasValue (.ofModel (.pack (.infinity s))) (withSign s v) where
  number := by
    show (Float.ofModel (.pack (.infinity s))).toModel.unpack.isNaN = false
    rw [unpack_pack_infinity]
    rfl
  value_eq := by
    have hpos : (0 : ℚ) < 2 ^ 1024 := by positivity
    rw [value, unpack_pack_infinity]
    cases s with
    | positive => rw [withSign, clip, if_pos hv, extendedValue]
    | negative =>
      have hneg : ¬ (2 ^ 1024 : ℚ) ≤ -v := not_le.mpr ((neg_nonpos.mpr (hpos.le.trans hv)).trans_lt hpos)
      rw [withSign, clip, if_neg hneg, if_pos (neg_le_neg hv), extendedValue]

theorem hasValue_finite {m : Nat} {q : Int} (hlt : m < 2 ^ 53) (hlow : -1074 ≤ q) (hfull : 2 ^ 52 ≤ m ∨ q = -1074)
    (hm : 0 < m) (s : Sign) : HasValue (.ofModel (.pack (.finite s m q hm))) (withSign s (m * 2 ^ q)) := by
  by_cases hhigh : q ≤ 971
  · have hunpack := Canonical.unpack_pack ⟨hlt, hlow, hhigh, hfull⟩ hm s
    have hrepresentable : Representable (withSign s (m * 2 ^ q)) := ⟨s, m, q, hlt, hlow, hhigh, rfl⟩
    constructor
    · show (Float.ofModel (.pack (.finite s m q hm))).toModel.unpack.isNaN = false
      rw [hunpack]
      rfl
    · rw [clip_of_abs_lt hrepresentable.abs_lt, ← finiteValue_finite s hm, value, hunpack]
      rfl
  · rw [pack_infinite (by omega)]
    refine hasValue_infinity ?_
    calc (2 ^ 1024 : ℚ) = 2 ^ (1024 : Int) := (zpow_natCast 2 1024).symm
      _ ≤ 2 ^ (52 + q) := zpow_le_zpow_right₀ (by norm_num) (by omega)
      _ = 2 ^ 52 * 2 ^ q := (two_pow_mul_zpow 52 q).symm
      _ ≤ m * 2 ^ q :=
        mul_le_mul_of_nonneg_right (by exact_mod_cast hfull.resolve_right (by omega)) (by positivity)

theorem finish_grown {t : Int} (hlow : -1074 ≤ t) (s : Sign) :
    finish s (2 ^ 53) t = .finite s (2 ^ 52) (t + 1) (by decide) := by
  obtain ⟨k, hk, hshift⟩ := shiftToTargetExponent_exact (2 ^ 53) t
  obtain rfl : k = 1 := by
    rw [Nat.log2_two_pow] at hk
    omega
  have hhalf : extended (2 ^ 53) (2 ^ 1) = extended (2 ^ 52) 1 :=
    extended_congr (by decide) Nat.one_pos (by norm_num)
  rw [hhalf] at hshift
  exact finish_of_shift hshift (by decide) s

/-- A rounded significand keeps its value, also where it has grown. -/
theorem hasValue_finish {r : Nat} {t : Int} (hle : r ≤ 2 ^ 53) (hlow : -1074 ≤ t) (hfull : t = -1074 ∨ 2 ^ 52 ≤ r)
    (s : Sign) : HasValue (.ofModel (.pack (finish s r t))) (withSign s (r * 2 ^ t)) := by
  rcases Nat.eq_zero_or_pos r with rfl | hpos
  · rw [finish_zero, Nat.cast_zero, zero_mul, withSign_zero]
    exact hasValue_zero s
  · rcases Nat.lt_or_eq_of_le hle with hlt | rfl
    · rw [finish_eq hlt hlow hfull.symm hpos]
      exact hasValue_finite hlt hlow hfull.symm hpos s
    · have hvalue : ((2 ^ 53 : Nat) * 2 ^ t : ℚ) = (2 ^ 52 : Nat) * 2 ^ (t + 1) := by
        rw [zpow_add₀ (by norm_num)]
        push_cast
        ring
      rw [finish_grown hlow, hvalue]
      exact hasValue_finite (by decide) (by omega) (.inl le_rfl) (by decide) s

theorem Rounds.isRounded {s : Sign} {v : ℚ} {u : UnpackedFloat} (h : Rounds s v u) :
    IsRounded (withSign s v) (.ofModel (.pack u)) := by
  obtain ⟨n, d, t, hsuits, rfl, rfl⟩ := h
  exact ⟨_, ⟨s, n, d, t, hsuits, rfl, rfl⟩,
    hasValue_finish hsuits.roundedMantissa_le hsuits.low hsuits.le_roundedMantissa s⟩

theorem isRounded_zero (s : Sign) : IsRounded 0 (.ofModel (.pack (.zero s))) := by
  have hsuits : Suits 0 1 (-1074) := ⟨Nat.one_pos, le_rfl, by decide, .inl rfl⟩
  have hrounds : Rounds s 0 (.zero s) := ⟨0, 1, -1074, hsuits, by simp, (finish_zero (-1074) s).symm⟩
  have hrounded := hrounds.isRounded
  rwa [withSign_zero] at hrounded

theorem rational_zero {x : Float} {s : Sign} (hu : x.toModel.unpack = .zero s) : rational x = 0 := by
  rw [rational, hu]
  rfl

theorem rational_finite {x : Float} {s : Sign} {m : Nat} {q : Int} {hm : 0 < m}
    (hu : x.toModel.unpack = .finite s m q hm) : rational x = withSign s (m * 2 ^ q) := by
  rw [rational, hu, finiteValue_finite]

theorem isRounded_rational {x : Float} (hx : x.isFinite = true) : IsRounded (rational x) x := by
  have hpack := ofModel_pack_unpack x
  rcases finite_cases hx with ⟨s, hu⟩ | ⟨s, m, q, hm, hu⟩
  · rw [rational_zero hu, ← hpack, hu]
    exact isRounded_zero s
  · have hrounded := ((canonical_of_unpack hu).rounds hm s).isRounded
    rwa [← hu, hpack, ← rational_finite hu] at hrounded

theorem representable_rational {x : Float} (hx : x.isFinite = true) : Representable (rational x) := by
  rcases finite_cases hx with ⟨s, hu⟩ | ⟨s, m, q, hm, hu⟩
  · rw [rational_zero hu]
    exact_mod_cast representable_nat (by decide : 0 < 2 ^ 53)
  · have h := canonical_of_unpack hu
    exact ⟨s, m, q, h.lt, h.low, h.high, rational_finite hu⟩

theorem isNaN_of_isFinite {x : Float} (hx : x.isFinite = true) : x.isNaN = false := (isRounded_rational hx).number

theorem isNaN_of_beq {x y : Float} (h : (x == y) = true) : x.isNaN = false := by
  change x.toModel.unpack.beq y.toModel.unpack = true at h
  show x.toModel.unpack.isNaN = false
  cases hu : x.toModel.unpack with
  | notANumber => rw [hu] at h; cases h
  | _ => rfl

theorem value_le_iff {x y : Float} (hx : x.isFinite = true) (hy : y.isFinite = true) :
    value x ≤ value y ↔ rational x ≤ rational y := by
  rw [value_of_finite hx, value_of_finite hy, WithBot.coe_le_coe, WithTop.coe_le_coe]
  rfl

/-- What lies between two finite doubles is finite. -/
theorem finite_of_between {x y z : Float} (hx : x.isNaN = false) (hy : y.isFinite = true) (hz : z.isFinite = true)
    (hle : value y ≤ value x) (hle' : value x ≤ value z) : x.isFinite = true := by
  rw [isFinite_iff hx]
  constructor
  · intro hbot
    rw [hbot, le_bot_iff] at hle
    exact ((isFinite_iff (isNaN_of_isFinite hy)).mp hy).1 hle
  · intro htop
    rw [htop, top_le_iff] at hle'
    exact ((isFinite_iff (isNaN_of_isFinite hz)).mp hz).2 hle'

theorem IsRounded.between {v : ℚ} {x y z : Float} (h : IsRounded v x) (hy : y.isFinite = true) (hz : z.isFinite = true)
    (hle : rational y ≤ v) (hle' : v ≤ rational z) :
    x.isFinite = true ∧ rational y ≤ rational x ∧ rational x ≤ rational z := by
  have hbelow := (isRounded_rational hy).mono h hle
  have habove := h.mono (isRounded_rational hz) hle'
  have hfinite := finite_of_between h.number hy hz hbelow habove
  exact ⟨hfinite, (value_le_iff hy hfinite).mp hbelow, (value_le_iff hfinite hz).mp habove⟩

end PlotFormula.Double
