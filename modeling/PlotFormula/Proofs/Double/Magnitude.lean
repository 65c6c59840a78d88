import PlotFormula.Proofs.Double.ReadBack

/-! # Doubles without a sign

A decimal has no sign, and a number of any size has a nearest double. So a decimal is read as a double that
is no NaN and has no sign: a zero, a positive number or the infinity above them.
-/
namespace PlotFormula.Double
open Float.Model (Format UnpackedFloat)
open Float.Model.UnpackedFloat

/-- The bit that is set in `-0` and in every double below zero. -/
def signBit (x : Float) : Bool := x.toBits.toBitVec.msb

/-- A double that is a number and has no sign. -/
structure IsMagnitude (x : Float) : Prop where
  number : x.isNaN = false
  unsigned : signBit x = false

theorem unpackSign_eq (b : BitVec 64) : @unpackSign Format.binary64 b = BitVec.ofBool b.msb := by
  apply BitVec.eq_of_toNat_eq
  have hb := b.isLt
  show (b.toNat >>> 63) % 2 ^ 1 = _
  rw [Nat.shiftRight_eq_div_pow, BitVec.toNat_ofBool]
  cases hmsb : b.msb with
  | false =>
    have := BitVec.msb_eq_false_iff_two_mul_lt.mp hmsb
    rw [Bool.toNat_false]
    omega
  | true =>
    have := BitVec.msb_eq_true_iff_two_mul_ge.mp hmsb
    rw [Bool.toNat_true]
    omega

theorem exists_ofParts_signBit (x : Float) :
    ∃ e m, x.toModel.unpack = ofParts (if signBit x then .negative else .positive) e m := by
  have hparts := unpack_eq_ofParts x.toModel.toBits.toBitVec
  have hsign : Sign.ofBitVec (@unpackSign Format.binary64 x.toModel.toBits.toBitVec) =
      if signBit x then .negative else .positive := by
    rw [unpackSign_eq, show x.toModel.toBits.toBitVec.msb = signBit x from rfl]
    cases signBit x <;> rfl
  rw [hsign] at hparts
  exact ⟨_, _, hparts⟩

namespace IsMagnitude
variable {x : Float} (h : IsMagnitude x)
include h

theorem infinite_or_isUnsigned : x.toModel.unpack = .infinity .positive ∨ IsUnsigned x := by
  obtain ⟨e, m, hx⟩ := exists_ofParts_signBit x
  have hnumber : x.toModel.unpack.isNaN = false := h.number
  rw [h.unsigned, if_neg Bool.false_ne_true] at hx
  rw [hx] at hnumber
  unfold ofParts at hx hnumber
  split at hx
  next hinfinite =>
    rw [if_pos hinfinite] at hnumber
    split at hx
    next => exact .inl hx
    next hm =>
      rw [if_neg hm] at hnumber
      simp [isNaN] at hnumber
  next =>
    split at hx
    next =>
      split at hx
      next => exact .inr (.zero hx)
      next => exact .inr (.positive hx)
    next => exact .inr (.positive hx)

theorem isUnsigned (hfinite : x.isFinite = true) : IsUnsigned x := by
  refine h.infinite_or_isUnsigned.resolve_left fun hx => ?_
  have hfinite : x.toModel.unpack.isFinite = true := hfinite
  rw [hx] at hfinite
  simp [isFinite] at hfinite

theorem not_lt : ¬ x < 0 := by
  rw [lt_zero_iff]
  rcases h.infinite_or_isUnsigned with hx | hx | hx <;> rw [hx] <;> exact Bool.false_ne_true

theorem ne_negative_zero : x ≠ -0.0 := by
  rintro rfl
  have : signBit (-0.0) = true := by decide +kernel
  rw [h.unsigned] at this
  exact absurd this Bool.false_ne_true

theorem beq_self : (x == x) = true := by
  show x.toModel.unpack.beq x.toModel.unpack = true
  rcases h.infinite_or_isUnsigned with hx | hx | hx <;> rw [hx]
  · rfl
  · rfl
  · simp [UnpackedFloat.beq, UnpackedFloat.compare]

theorem positional_cases :
    (x.isFinite = true ∧ positional x ≠ [] ∧ ∀ c ∈ positional x, c.isDigit = true ∨ c = '.') ∨
      (x.isFinite = false ∧ positional x = ['i', 'n', 'f']) := by
  cases hfinite : x.isFinite with
  | true =>
    obtain ⟨ds, k, hmantissa, -⟩ := exists_mantissa_positional (h.isUnsigned hfinite)
    exact .inl ⟨rfl, hmantissa.ne_nil, hmantissa.mem⟩
  | false =>
    refine .inr ⟨rfl, ?_⟩
    have hfinite : x.toModel.unpack.isFinite = false := hfinite
    rcases h.infinite_or_isUnsigned with hx | hx | hx
    · simp only [positional, textWith, hx]
      rfl
    all_goals
      rw [hx] at hfinite
      simp [isFinite] at hfinite

end IsMagnitude

def HasSign (s : Sign) : UnpackedFloat → Prop
  | .notANumber => False
  | .infinity t | .zero t | .finite t _ _ _ => t = s

theorem hasSign_finish (s : Sign) (m : Nat) (t : Int) : HasSign s (finish s m t) := by
  unfold finish
  dsimp only
  split <;> rfl

theorem isMagnitude_pack {u : UnpackedFloat} (h : HasSign .positive u) :
    IsMagnitude (.ofModel (.pack u)) := by
  -- Bits of an exponent that are all set belong to an infinity, since a NaN has no sign.
  obtain ⟨e, m, hpack, hnumber⟩ : ∃ e m, pack Format.binary64 u = packComponents Format.binary64 .positive e m ∧
      (e = -1#11 → m = 0#52) := by
    cases u with
    | notANumber => exact h.elim
    | infinity t =>
      obtain rfl : t = .positive := h
      exact ⟨_, _, rfl, fun _ => rfl⟩
    | zero t =>
      obtain rfl : t = .positive := h
      exact ⟨_, _, rfl, fun h => absurd h (by decide)⟩
    | finite t m q hm =>
      obtain rfl : t = .positive := h
      have hpower : 2 ^ Format.binary64.exponentBits = 2048 := by decide
      unfold pack
      dsimp only
      split
      next => exact ⟨_, _, rfl, fun _ => rfl⟩
      next hsmall =>
        split
        next =>
          refine ⟨_, _, rfl, fun he => ?_⟩
          have he := congrArg BitVec.toNat he
          rw [BitVec.toNat_ofNat, Nat.mod_eq_of_lt (by omega)] at he
          have hall : (-1#11).toNat = 2047 := by decide
          omega
        next => exact ⟨_, _, rfl, fun h => absurd h (by decide)⟩
  have hbits : (Float.ofModel (.pack u)).toBits.toBitVec = packComponents Format.binary64 .positive e m := hpack
  constructor
  · show (unpack Format.binary64 (Float.ofModel (.pack u)).toBits.toBitVec).isNaN = false
    rw [hbits, unpack_packComponents]
    unfold ofParts
    split
    next he => rw [if_pos (hnumber he)]; rfl
    next =>
      split
      next => split <;> rfl
      next => rfl
  · have hsign := unpackSign_eq (Float.ofModel (.pack u)).toBits.toBitVec
    rw [hbits, unpackSign_packComponents, ← hbits, ← signBit.eq_def] at hsign
    cases hx : signBit (.ofModel (.pack u)) with
    | false => rfl
    | true =>
      rw [hx] at hsign
      exact absurd hsign (by decide)

/-- Every decimal is read as a number without a sign. -/
theorem isMagnitude_toDouble (d : Decimal) : IsMagnitude d.toDouble := by
  by_cases hd : d.coefficient = 0
  · rw [toDouble_of_coefficient hd]
    exact isMagnitude_pack rfl
  · obtain ⟨u, ⟨n, k, t, -, -, rfl⟩, hu⟩ := isNearest_toDouble (Nat.pos_of_ne_zero hd)
    rw [hu]
    exact isMagnitude_pack (hasSign_finish _ _ _)

end PlotFormula.Double
