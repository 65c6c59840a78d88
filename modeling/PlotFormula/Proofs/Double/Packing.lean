import Mathlib
import PlotFormula.Double.Basic

/-! # The parts of a double

A double is a sign, an exponent and a significand in bits, and every double is packed from what it is
unpacked to. Changing the sign of a double changes nothing else. A significand and an exponent of the sizes that
doubles have are packed as they are, and a greater exponent is packed as an infinity.
-/
namespace PlotFormula.Double
open Float.Model (Format UnpackedFloat)
open Float.Model.UnpackedFloat

theorem toNat_append_one (m : BitVec 52) : (1#1 ++ m).toNat = 2 ^ 52 + m.toNat := by
  rw [BitVec.toNat_append, ← Nat.shiftLeft_add_eq_or_of_lt m.isLt]
  rfl

/-- The number with a sign, the bits of an exponent and the bits of a significand. -/
def ofParts (s : Sign) (e : BitVec 11) (m : BitVec 52) : UnpackedFloat :=
  if e = -1#11 then
    if m = 0#52 then .infinity s else .notANumber
  else if e = 0#11 then
    if h : m = 0#52 then .zero s
    else .finite s m.toNat (e.toNat - 1075 + 1) (by simpa [BitVec.toNat_pos, BitVec.pos_iff_ne_zero])
  else
    .finite s (1#1 ++ m).toNat (e.toNat - 1075) (by rw [toNat_append_one]; omega)

theorem unpack_eq_ofParts (b : BitVec 64) :
    unpack Format.binary64 b = ofParts (Sign.ofBitVec (@unpackSign Format.binary64 b))
      (@unpackExponent Format.binary64 b) (@unpackMantissa Format.binary64 b) := rfl

theorem unpack_packComponents (s : Sign) (e : BitVec 11) (m : BitVec 52) :
    unpack Format.binary64 (packComponents Format.binary64 s e m) = ofParts s e m := by
  rw [unpack_eq_ofParts, unpackSign_packComponents, unpackExponent_packComponents,
    unpackMantissa_packComponents, Sign.ofBitVec_toBitVec]

theorem unpack_pack_ofParts (s : Sign) (e : BitVec 11) (m : BitVec 52) :
    unpack Format.binary64 (pack Format.binary64 (ofParts s e m)) = ofParts s e m := by
  rw [← unpack_packComponents, pack_unpack]
  split
  next hnan =>
    simp only [isNaNBits, unpackExponent_packComponents, unpackMantissa_packComponents, decide_eq_true_eq]
      at hnan
    rw [unpack_packedNaN, unpack_packComponents, ofParts, if_pos hnan.1, if_neg hnan.2]
  next => rfl

theorem neg_ofParts (s : Sign) (e : BitVec 11) (m : BitVec 52) : (ofParts s e m).neg = ofParts (-s) e m := by
  unfold ofParts
  split
  next => split <;> rfl
  next =>
    split
    next => split <;> rfl
    next => rfl

theorem abs_ofParts (s : Sign) (e : BitVec 11) (m : BitVec 52) :
    (ofParts s e m).abs = ofParts .positive e m := by
  unfold ofParts
  split
  next => split <;> rfl
  next =>
    split
    next => split <;> rfl
    next => rfl

theorem exists_ofParts (x : Float) : ∃ s e m, x.toModel.unpack = ofParts s e m :=
  ⟨_, _, _, unpack_eq_ofParts x.toModel.toBits.toBitVec⟩

theorem ofModel_pack_unpack (x : Float) : Float.ofModel (.pack x.toModel.unpack) = x := by
  obtain ⟨bits, hvalid⟩ := x
  have hbits : UInt64.ofBitVec (pack Format.binary64 (unpack Format.binary64 bits.toBitVec)) = bits := by
    rw [pack_unpack_of_valid hvalid]
  exact congrArg Float.ofModel (by simp only [Float.Model.pack, Float.Model.unpack, hbits])

theorem unpack_pack_zero (s : Sign) : (Float.ofModel (.pack (.zero s))).toModel.unpack = .zero s :=
  unpack_pack_ofParts s 0#11 0#52

theorem unpack_pack_infinity (s : Sign) : (Float.ofModel (.pack (.infinity s))).toModel.unpack = .infinity s :=
  unpack_pack_ofParts s (-1#11) 0#52

theorem unpack_pack_nan : (Float.ofModel (.pack .notANumber)).toModel.unpack = .notANumber :=
  unpack_pack_ofParts .positive (-1#11) 1#52

theorem unpack_neg (x : Float) : (-x).toModel.unpack = x.toModel.unpack.neg := by
  obtain ⟨s, e, m, hx⟩ := exists_ofParts x
  show unpack Format.binary64 (pack Format.binary64 x.toModel.unpack.neg) = _
  rw [hx, neg_ofParts, unpack_pack_ofParts]

theorem unpack_abs (x : Float) : x.abs.toModel.unpack = x.toModel.unpack.abs := by
  obtain ⟨s, e, m, hx⟩ := exists_ofParts x
  show unpack Format.binary64 (pack Format.binary64 x.toModel.unpack.abs) = _
  rw [hx, abs_ofParts, unpack_pack_ofParts]

theorem ext_unpack {x y : Float} (h : x.toModel.unpack = y.toModel.unpack) : x = y := by
  rw [← ofModel_pack_unpack x, h, ofModel_pack_unpack]

theorem finite_cases {x : Float} (hx : x.isFinite = true) :
    (∃ s, x.toModel.unpack = .zero s) ∨ ∃ s m q, ∃ hm : 0 < m, x.toModel.unpack = .finite s m q hm := by
  change x.toModel.unpack.isFinite = true at hx
  cases hu : x.toModel.unpack with
  | notANumber => rw [hu] at hx; cases hx
  | infinity s => rw [hu] at hx; cases hx
  | zero s => exact .inl ⟨s, rfl⟩
  | finite s m q hm => exact .inr ⟨s, m, q, hm, rfl⟩

/-- A finite significand and exponent that are those of a double. -/
structure Canonical (m : Nat) (q : Int) : Prop where
  lt : m < 2 ^ 53
  low : -1074 ≤ q
  high : q ≤ 971
  full : 2 ^ 52 ≤ m ∨ q = -1074

theorem canonical_of_unpack {x : Float} {s : Sign} {m : Nat} {q : Int} {h : 0 < m}
    (hx : x.toModel.unpack = .finite s m q h) : Canonical m q := by
  obtain ⟨s', e, v, hparts⟩ := exists_ofParts x
  rw [hparts] at hx
  have hv := v.isLt
  have he := e.isLt
  unfold ofParts at hx
  split at hx
  next => split at hx <;> simp at hx
  next hinfinite =>
    have hne : e.toNat ≠ 2047 := fun heq => hinfinite (BitVec.eq_of_toNat_eq heq)
    split at hx
    next hzero =>
      subst hzero
      split at hx
      next => simp at hx
      next =>
        obtain ⟨-, rfl, rfl⟩ := UnpackedFloat.finite.inj hx
        exact ⟨by omega, by decide, by decide, .inr (by decide)⟩
    next hzero =>
      have hne' : e.toNat ≠ 0 := fun heq => hzero (BitVec.eq_of_toNat_eq heq)
      obtain ⟨-, rfl, rfl⟩ := UnpackedFloat.finite.inj hx
      rw [toNat_append_one]
      exact ⟨by omega, by omega, by omega, .inl (by omega)⟩

theorem finite_congr {s : Sign} {m m' : Nat} {q q' : Int} {hm : 0 < m} {hm' : 0 < m'} (hmantissa : m = m')
    (hexponent : q = q') : UnpackedFloat.finite s m q hm = .finite s m' q' hm' := by
  subst hmantissa hexponent
  rfl

theorem ofParts_full {m : Nat} {q : Int} (h : Canonical m q) (hfull : 2 ^ 52 ≤ m) (hm : 0 < m) (s : Sign) :
    ofParts s (.ofNat 11 (q + 1075).toNat) (.ofNat 52 (m - 2 ^ 52)) = .finite s m q hm := by
  have hlt := h.lt
  have hlow := h.low
  have hhigh := h.high
  have he : (BitVec.ofNat 11 (q + 1075).toNat).toNat = (q + 1075).toNat := by
    rw [BitVec.toNat_ofNat, Nat.mod_eq_of_lt (by omega)]
  have hv : (BitVec.ofNat 52 (m - 2 ^ 52)).toNat = m - 2 ^ 52 := by
    rw [BitVec.toNat_ofNat, Nat.mod_eq_of_lt (by omega)]
  have hfinite : BitVec.ofNat 11 (q + 1075).toNat ≠ -1#11 := by
    intro heq
    have hall : (-1#11).toNat = 2047 := by decide
    rw [heq, hall] at he
    omega
  have hnormal : BitVec.ofNat 11 (q + 1075).toNat ≠ 0#11 := by
    intro heq
    have hzero : (0#11).toNat = 0 := rfl
    rw [heq, hzero] at he
    omega
  rw [ofParts, if_neg hfinite, if_neg hnormal]
  refine finite_congr ?_ ?_
  · rw [toNat_append_one, hv]
    omega
  · rw [he]
    omega

theorem ofParts_short {m : Nat} (hlt : m < 2 ^ 52) (hm : 0 < m) (s : Sign) :
    ofParts s 0#11 (.ofNat 52 m) = .finite s m (-1074) hm := by
  have hv : (BitVec.ofNat 52 m).toNat = m := by
    rw [BitVec.toNat_ofNat, Nat.mod_eq_of_lt (by omega)]
  have hnonzero : BitVec.ofNat 52 m ≠ 0#52 := by
    intro heq
    have hzero : (0#52).toNat = 0 := rfl
    rw [heq, hzero] at hv
    omega
  rw [ofParts, if_neg (by decide), if_pos rfl, dif_neg hnonzero]
  exact finite_congr hv rfl

theorem Canonical.unpack_pack {m : Nat} {q : Int} (h : Canonical m q) (hm : 0 < m) (s : Sign) :
    (Float.ofModel (.pack (.finite s m q hm))).toModel.unpack = .finite s m q hm := by
  by_cases hfull : 2 ^ 52 ≤ m
  · rw [← ofParts_full h hfull]
    exact unpack_pack_ofParts s _ _
  · obtain rfl := h.full.resolve_left hfull
    rw [← ofParts_short (Nat.not_le.mp hfull)]
    exact unpack_pack_ofParts s _ _

/-- An exponent that is too large is packed as an infinity. -/
theorem pack_infinite {m : Nat} {q : Int} (hq : 971 < q) (hm : 0 < m) (s : Sign) :
    Float.Model.pack (.finite s m q hm) = .pack (.infinity s) := by
  have hbias : (Format.binary64.exponentBias : Int) = 1023 := by decide
  have hbits : (Format.binary64.mantissaBitsWithoutImplicit : Int) = 52 := by decide
  have hlarge : 2 ^ Format.binary64.exponentBits ≤
      (q + Format.binary64.exponentBias + Format.binary64.mantissaBitsWithoutImplicit).toNat + 1 := by
    have hpower : 2 ^ Format.binary64.exponentBits = 2048 := by decide
    omega
  have hpack : pack Format.binary64 (.finite s m q hm) = pack Format.binary64 (.infinity s) := by
    simp only [pack, if_pos hlarge]
  simp only [Float.Model.pack, hpack]

end PlotFormula.Double
