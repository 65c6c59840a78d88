import PlotFormula.Double.Notation
import PlotFormula.Proofs.Double.Nearest
import PlotFormula.Proofs.Grammar.Literals

/-! # Reading back what is written

The shortest digits of a double read back as it, and placing a point among them does not change the number.
So the text of a finite double without a sign is a mantissa that is read as that double.
-/
namespace PlotFormula

namespace Decimal

theorem natOfDigits_eq (ds : List Char) : natOfDigits ds = Nat.ofDigitChars 10 ds 0 :=
  Nat.ofDigitChars_eq_foldl.symm

theorem natOfDigits_toDigits (n : Nat) : natOfDigits (Nat.toDigits 10 n) = n := by
  rw [natOfDigits_eq, Nat.ofDigitChars_ten_toDigits]

theorem natOfDigits_append (ds es : List Char) :
    natOfDigits (ds ++ es) = 10 ^ es.length * natOfDigits ds + natOfDigits es := by
  simp only [natOfDigits_eq]
  rw [Nat.ofDigitChars_append, Nat.ofDigitChars_eq_ofDigitChars_zero]

theorem natOfDigits_zeros (n : Nat) : natOfDigits (List.replicate n '0') = 0 := by
  rw [natOfDigits_eq, Nat.ofDigitChars_replicate_zero, Nat.mul_zero]

theorem allDigits_zeros (n : Nat) : AllDigits (List.replicate n '0') := by
  intro c hc
  obtain rfl := List.eq_of_mem_replicate hc
  decide

theorem allDigits_toDigits (n : Nat) : AllDigits (Nat.toDigits 10 n) :=
  fun _ hc => Nat.isDigit_of_mem_toDigits (by decide) (by decide) hc

end Decimal

namespace Double
open Float.Model (UnpackedFloat)
open Float.Model.UnpackedFloat
open Decimal (natOfDigits AllDigits Mantissa)

/-- The number `0.d₁d₂… * 10 ^ point`. -/
def Digits.value (d : Digits) : ℚ := natOfDigits d.digits * 10 ^ (d.point - d.digits.length)

structure Digits.IsPositive (d : Digits) : Prop where
  digits : AllDigits d.digits
  pos : 0 < natOfDigits d.digits

theorem Digits.IsPositive.ne_nil {d : Digits} (h : d.IsPositive) : d.digits ≠ [] := by
  intro hnil
  have := h.pos
  rw [hnil] at this
  exact absurd this (Nat.lt_irrefl 0)

theorem exists_zeros (ds : List Char) :
    ∃ n, ds = (ds.reverse.dropWhile (· = '0')).reverse ++ List.replicate n '0' := by
  have hzeros : ∀ c ∈ ds.reverse.takeWhile (· = '0'), c = '0' := by
    intro c hc
    have hall := List.all_eq_true.mp (List.all_takeWhile (p := (· = '0')) (l := ds.reverse)) c hc
    simpa using hall
  have hsplit := congrArg List.reverse (List.takeWhile_append_dropWhile (p := (· = '0')) (l := ds.reverse))
  rw [List.eq_replicate_of_mem hzeros, List.reverse_append, List.reverse_replicate, List.reverse_reverse] at hsplit
  exact ⟨_, hsplit.symm⟩

theorem exists_ofDecimal (d : Decimal) :
    ∃ n : Nat, d.coefficient = 10 ^ n * natOfDigits (Digits.ofDecimal d).digits ∧
      (Digits.ofDecimal d).point = (Digits.ofDecimal d).digits.length + n + d.exponent := by
  obtain ⟨n, hn⟩ := exists_zeros (Nat.toDigits 10 d.coefficient)
  change _ = (Digits.ofDecimal d).digits ++ _ at hn
  refine ⟨n, ?_, ?_⟩
  · have hvalue := congrArg natOfDigits hn
    rwa [Decimal.natOfDigits_toDigits, Decimal.natOfDigits_append, Decimal.natOfDigits_zeros, Nat.add_zero,
      List.length_replicate] at hvalue
  · have hlength := congrArg List.length hn
    rw [List.length_append, List.length_replicate] at hlength
    show ((Nat.toDigits 10 d.coefficient).length : Int) + d.exponent = _
    omega

theorem value_ofDecimal (d : Decimal) : (Digits.ofDecimal d).value = valueOf d := by
  obtain ⟨n, hcoefficient, hpoint⟩ := exists_ofDecimal d
  have hexponent : (Digits.ofDecimal d).point - (Digits.ofDecimal d).digits.length = n + d.exponent := by omega
  rw [Digits.value, valueOf, hexponent, hcoefficient, zpow_add₀ (by norm_num), zpow_natCast]
  push_cast
  ring

theorem isPositive_ofDecimal {d : Decimal} (hd : 0 < d.coefficient) : (Digits.ofDecimal d).IsPositive := by
  constructor
  · intro c hc
    apply Decimal.allDigits_toDigits d.coefficient c
    exact List.mem_reverse.mp (List.dropWhile_sublist _ |>.mem (List.mem_reverse.mp hc))
  · obtain ⟨n, hcoefficient, -⟩ := exists_ofDecimal d
    rw [hcoefficient] at hd
    exact Nat.pos_of_mul_pos_left hd

/-- The text is a mantissa of the number. -/
def MantissaOf (v : ℚ) (s : List Char) : Prop :=
  ∃ ds k, Mantissa s ds k ∧ valueOf ⟨natOfDigits ds, -(k : Int)⟩ = v

namespace Digits.IsPositive
variable {d : Digits} (hd : d.IsPositive)
include hd

theorem mantissaOf_fraction (h : d.point ≤ 0) :
    MantissaOf d.value (['0', '.'] ++ List.replicate (-d.point).toNat '0' ++ d.digits) := by
  have hdigits := (Decimal.allDigits_zeros (-d.point).toNat).append hd.digits
  have htext : ['0', '.'] ++ List.replicate (-d.point).toNat '0' ++ d.digits =
      ['0'] ++ '.' :: (List.replicate (-d.point).toNat '0' ++ d.digits) := by simp
  rw [htext]
  refine ⟨_, _, .point (Decimal.allDigits_zeros 1) hdigits (by simp), ?_⟩
  have hexponent : -(((List.replicate (-d.point).toNat '0' ++ d.digits).length : Nat) : Int) =
      d.point - d.digits.length := by
    rw [List.length_append, List.length_replicate]
    omega
  have hleading : natOfDigits ['0'] = 0 := Decimal.natOfDigits_zeros 1
  have hvalue : natOfDigits (['0'] ++ (List.replicate (-d.point).toNat '0' ++ d.digits)) =
      natOfDigits d.digits := by
    rw [Decimal.natOfDigits_append, Decimal.natOfDigits_append, Decimal.natOfDigits_zeros, hleading,
      Nat.mul_zero, Nat.mul_zero, Nat.zero_add, Nat.zero_add]
  rw [valueOf, Digits.value, hexponent]
  exact congrArg (fun n : Nat => (n : ℚ) * 10 ^ (d.point - d.digits.length)) hvalue

theorem mantissaOf_whole (h : d.digits.length ≤ d.point.toNat) (hpoint : 0 < d.point) :
    MantissaOf d.value (d.digits ++ List.replicate (d.point.toNat - d.digits.length) '0') := by
  refine ⟨_, _, .whole (hd.digits.append (Decimal.allDigits_zeros _)) (by simp [hd.ne_nil]), ?_⟩
  have hexponent : d.point - d.digits.length = (d.point.toNat - d.digits.length : Nat) := by omega
  rw [valueOf, Digits.value, hexponent, Decimal.natOfDigits_append, Decimal.natOfDigits_zeros,
    List.length_replicate, zpow_natCast]
  push_cast
  ring

theorem mantissaOf_split (h : d.point.toNat < d.digits.length) (hpoint : 0 < d.point) :
    MantissaOf d.value (d.digits.take d.point.toNat ++ '.' :: d.digits.drop d.point.toNat) := by
  have hmem : ∀ c ∈ d.digits.take d.point.toNat ++ d.digits.drop d.point.toNat, c.isDigit = true := by
    rw [List.take_append_drop]
    exact hd.digits
  obtain ⟨htake, hdrop⟩ := List.forall_mem_append.mp hmem
  refine ⟨_, _, .point htake hdrop (by rw [List.take_append_drop]; exact hd.ne_nil), ?_⟩
  have hexponent : -(((d.digits.drop d.point.toNat).length : Nat) : Int) = d.point - d.digits.length := by
    rw [List.length_drop]
    omega
  rw [valueOf, Digits.value, hexponent, List.take_append_drop]

theorem mantissaOf_positional : MantissaOf d.value d.positional := by
  unfold Digits.positional
  by_cases hsmall : d.point ≤ 0
  · rw [if_pos hsmall]
    exact hd.mantissaOf_fraction hsmall
  · have hpoint : 0 < d.point := by omega
    rw [if_neg hsmall]
    by_cases hlong : d.digits.length ≤ d.point.toNat
    · rw [if_pos hlong]
      exact hd.mantissaOf_whole hlong hpoint
    · rw [if_neg hlong]
      exact hd.mantissaOf_split (Nat.not_le.mp hlong) hpoint

end Digits.IsPositive

theorem toDouble_of_neighbour? {x : Float} {r : Ratio} {n : Nat} {d : Decimal} (h : neighbour? x r n = some d) :
    d.toDouble = x := by
  unfold neighbour? at h
  dsimp only at h
  split at h
  next hlower hupper =>
    obtain rfl := Option.some.inj h
    split
    · exact of_decide_eq_true hlower
    · exact of_decide_eq_true hupper
  next hlower hupper =>
    obtain rfl := Option.some.inj h
    exact of_decide_eq_true hlower
  next hlower hupper =>
    obtain rfl := Option.some.inj h
    exact of_decide_eq_true hupper
  next => simp at h

theorem valueOf_exactDecimal (m : Nat) (q : Int) : valueOf (exactDecimal m q) = m * 2 ^ q := by
  unfold exactDecimal valueOf
  by_cases hq : 0 ≤ q
  · obtain ⟨k, rfl⟩ := Int.eq_ofNat_of_zero_le hq
    rw [if_pos hq]
    simp
  · obtain ⟨k, rfl⟩ := Int.exists_eq_neg_ofNat (Int.le_of_not_le hq)
    have hk : (-(-(k : Int))).toNat = k := by omega
    rw [if_neg hq]
    simp only [hk, Nat.pow_eq]
    have hten : (10 : ℚ) ^ k = 5 ^ k * 2 ^ k := by
      rw [← mul_pow]
      norm_num
    rw [zpow_neg, zpow_neg, zpow_natCast, zpow_natCast, hten]
    push_cast
    field_simp

/-- The shortest decimal reads back as the double. -/
theorem toDouble_shortestDecimal {x : Float} {m : Nat} {q : Int} {h : 0 < m}
    (hx : x.toModel.unpack = .finite .positive m q h) : (shortestDecimal x m q).toDouble = x := by
  unfold shortestDecimal
  cases hfind : (List.range 17).findSome? fun n => neighbour? x (.ofBinary m q) (n + 1) with
  | some d =>
    obtain ⟨n, -, hn⟩ := List.exists_of_findSome?_eq_some hfind
    exact toDouble_of_neighbour? hn
  | none =>
    have hpos : 0 < (exactDecimal m q).coefficient := by
      unfold exactDecimal
      split <;> exact Nat.mul_pos h (Nat.pow_pos (by decide))
    have hnearest := isNearest_toDouble hpos
    rw [valueOf_exactDecimal] at hnearest
    exact hnearest.unique (isNearest_of_finite hx)

/-- A finite double without a sign: the zero that has none, or a positive number. -/
inductive IsUnsigned (x : Float) : Prop
  | zero (hx : x.toModel.unpack = .zero .positive)
  | positive {m : Nat} {q : Int} {h : 0 < m} (hx : x.toModel.unpack = .finite .positive m q h)

theorem toDouble_of_coefficient {d : Decimal} (hd : d.coefficient = 0) :
    d.toDouble = .ofModel (.pack (.zero .positive)) := by
  show Float.ofModel (.pack (ofScientific _ d.coefficient d.exponent)) = _
  rw [ofScientific, dif_pos hd]

/-- What is written for a double without a sign is digits with at most one point, and it is read as that
double. -/
theorem exists_mantissa_positional {x : Float} (hx : IsUnsigned x) :
    ∃ ds k, Mantissa (positional x) ds k ∧ Decimal.toDouble ⟨natOfDigits ds, -(k : Int)⟩ = x := by
  cases hx with
  | zero hx =>
    have htext : positional x = ['0'] := by
      simp only [positional, textWith, hx]
      rfl
    rw [htext]
    refine ⟨_, _, .whole (Decimal.allDigits_zeros 1) (by decide), ?_⟩
    rw [toDouble_of_coefficient (Decimal.natOfDigits_zeros 1), ← hx, ofModel_pack_unpack]
  | @positive m q h hx =>
    have habs : x.abs = x := by
      apply ext_unpack
      rw [unpack_abs, hx]
      rfl
    have htext : positional x = (Digits.ofDecimal (shortestDecimal x m q)).positional := by
      simp only [positional, textWith, hx, habs]
      rfl
    have hshortest := toDouble_shortestDecimal hx
    have hpos : 0 < (shortestDecimal x m q).coefficient := by
      by_contra hle
      have hzero := toDouble_of_coefficient (Nat.eq_zero_of_not_pos hle)
      rw [hshortest] at hzero
      rw [hzero, unpack_pack_zero] at hx
      cases hx
    obtain ⟨ds, k, hmantissa, hvalue⟩ := (isPositive_ofDecimal hpos).mantissaOf_positional
    rw [htext]
    refine ⟨ds, k, hmantissa, ?_⟩
    rw [← toDouble_congr hpos (hvalue.trans (value_ofDecimal _)).symm, hshortest]

theorem lt_zero_iff {x : Float} : x < 0 ↔ x.toModel.unpack.lt (.zero .positive) = true := by
  have hzero : (0 : Float) = .ofModel (.pack (.zero .positive)) := by decide +kernel
  have hlt (y : Float) : x < y ↔ x.toModel.unpack.lt y.toModel.unpack = true := decide_eq_true_iff
  rw [hlt, hzero, unpack_pack_zero]

theorem isUnsigned_of_not_lt {x : Float} (hfinite : x.isFinite = true) (hzero : x ≠ -0.0) (h : ¬ x < 0) :
    IsUnsigned x := by
  rw [lt_zero_iff] at h
  rcases finite_cases hfinite with ⟨s, hx⟩ | ⟨s, m, q, hm, hx⟩
  · cases s with
    | positive => exact .zero hx
    | negative =>
      have hminus : (-0.0 : Float) = .ofModel (.pack (.zero .negative)) := by decide +kernel
      rw [hminus, ← hx, ofModel_pack_unpack] at hzero
      exact absurd rfl hzero
  · cases s with
    | positive => exact .positive hx
    | negative =>
      rw [hx] at h
      exact absurd rfl h

theorem positional_of_lt {x : Float} (hfinite : x.isFinite = true) (h : x < 0) :
    IsUnsigned (-x) ∧ positional x = '-' :: positional (-x) := by
  rw [lt_zero_iff] at h
  rcases finite_cases hfinite with ⟨s, hx⟩ | ⟨s, m, q, hm, hx⟩
  · rw [hx] at h
    cases h
  · cases s with
    | positive =>
      rw [hx] at h
      cases h
    | negative =>
      have hneg : (-x).toModel.unpack = .finite .positive m q hm := by
        rw [unpack_neg, hx]
        rfl
      have habs : (-x).abs = x.abs := by
        apply ext_unpack
        rw [unpack_abs, unpack_abs, hneg, hx]
        rfl
      refine ⟨.positive hneg, ?_⟩
      simp only [positional, textWith, hx, hneg, habs]
      rfl

end Double
end PlotFormula
