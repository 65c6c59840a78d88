import Mathlib
import PlotFormula.Proofs.Expr.Evaluation

/-! # Slopes over the rationals

Over the rationals sums, products, quotients and powers with an integer exponent are exact. A formula made
of these has a value in every ring over the rationals, in particular among the numbers `x + d * ε` with
`ε * ε = 0`. Where the coordinate of a slot is moved by `ε`, the value moves by `ε` times the partial
derivative, so the rules by which slopes are computed are those of differentiation.
-/
namespace PlotFormula
open DualNumber TrivSqZeroExt

/-- The functions that lead out of the rationals, read in any way. -/
class Inexact where
  pi : ℚ
  euler : ℚ
  nan : ℚ
  sqrt : ℚ → ℚ
  /-- A power whose exponent is no integer. -/
  root : ℚ → ℚ → ℚ
  exp : ℚ → ℚ
  log : ℚ → ℚ
  sin : ℚ → ℚ
  cos : ℚ → ℚ
  tan : ℚ → ℚ
  asin : ℚ → ℚ
  acos : ℚ → ℚ
  atan : ℚ → ℚ
deriving Inhabited

instance exactScalar [Inexact] : Scalar ℚ where
  ofNat n := n
  half := 1 / 2
  pi := Inexact.pi
  euler := Inexact.euler
  nan := Inexact.nan
  isNaN _ := false
  lt x y := decide (x < y)
  le x y := decide (x ≤ y)
  max := max
  min := min
  floor x := ⌊x⌋
  ceil x := ⌈x⌉
  abs x := |x|
  sqrt := Inexact.sqrt
  pow x y := if y.den = 1 then x ^ y.num else Inexact.root x y
  exp := Inexact.exp
  log := Inexact.log
  sin := Inexact.sin
  cos := Inexact.cos
  tan := Inexact.tan
  asin := Inexact.asin
  acos := Inexact.acos
  atan := Inexact.atan

namespace Dual

def toNumber (a : Dual ℚ) : ℚ[ε] := inl a.value + a.derivative • ε

@[simp] theorem fst_toNumber (a : Dual ℚ) : a.toNumber.fst = a.value := by simp [toNumber]

@[simp] theorem snd_toNumber (a : Dual ℚ) : a.toNumber.snd = a.derivative := by simp [toNumber]

variable [Inexact] {b : Dual ℚ}

theorem zero_eq : (Scalar.zero : ℚ) = 0 := Nat.cast_zero

theorem one_eq : (Scalar.one : ℚ) = 1 := Nat.cast_one

theorem two_eq : (Scalar.two : ℚ) = 2 := Nat.cast_ofNat

theorem pow_eq (x : ℚ) (n : Nat) : Scalar.pow x (n : ℚ) = x ^ n := by
  show (if (n : ℚ).den = 1 then x ^ (n : ℚ).num else _) = _
  rw [Rat.den_natCast, if_pos rfl, Rat.num_natCast, zpow_natCast]

theorem toNumber_constant (c : ℚ) : (constant c).toNumber = algebraMap ℚ ℚ[ε] c := by
  ext
  · simp [constant]
    rfl
  · simp [constant, zero_eq]
    rfl

theorem toNumber_var (x : ℚ) (slot v : Nat) :
    toNumber ⟨x, if slot = v then Scalar.one else Scalar.zero⟩ = if slot = v then inl x + ε else inl x := by
  split <;> simp [toNumber, one_eq, zero_eq]

theorem toNumber_neg (a : Dual ℚ) : a.neg.toNumber = -a.toNumber := by
  ext
  · simp [neg]
  · simp [neg]

theorem toNumber_add (a b : Dual ℚ) : (binary .add a b).toNumber = a.toNumber + b.toNumber := by
  ext <;> simp [binary, binaryDerivative, Op.apply]

theorem toNumber_subtract (a b : Dual ℚ) : (binary .subtract a b).toNumber = a.toNumber - b.toNumber := by
  ext <;> simp [binary, binaryDerivative, Op.apply]

theorem toNumber_multiply (a b : Dual ℚ) : (binary .multiply a b).toNumber = a.toNumber * b.toNumber := by
  ext
  · simp [binary, binaryDerivative, Op.apply]
  · simp [binary, binaryDerivative, Op.apply]
    ring

theorem toNumber_divide_mul (a : Dual ℚ) (hb : b.value ≠ 0) :
    (binary .divide a b).toNumber * b.toNumber = a.toNumber := by
  ext
  · simp [binary, binaryDerivative, Op.apply]
    field_simp
  · simp [binary, binaryDerivative, Op.apply]
    field_simp
    ring

omit [Inexact] in
theorem toNumber_cancel (hb : b.value ≠ 0) {x y : ℚ[ε]} (h : x * b.toNumber = y * b.toNumber) : x = y := by
  have hunit : IsUnit b.toNumber := by
    rw [isUnit_iff_isUnit_fst, fst_toNumber]
    exact isUnit_iff_ne_zero.mpr hb
  exact hunit.mul_left_inj.mp h

theorem powerDerivative_constant (a : Dual ℚ) {n : Nat} (hn : 1 ≤ n) :
    powerDerivative a (constant (n : ℚ)) = a.value ^ (n - 1) * a.derivative * n := by
  have hexponent : (n : ℚ) - Scalar.one = ((n - 1 : Nat) : ℚ) := by
    rw [one_eq, Nat.cast_sub hn, Nat.cast_one]
  have hpow : Scalar.pow a.value ((n : ℚ) - Scalar.one) = a.value ^ (n - 1) := by
    rw [hexponent, pow_eq]
  by_cases hflat : a.derivative = 0
  · simp [powerDerivative, constant, zero_eq, hflat]
  · simp [powerDerivative, constant, zero_eq, hflat, hpow]

theorem toNumber_power (a : Dual ℚ) {n : Nat} (hn : 1 ≤ n) :
    (binary .power a (constant (n : ℚ))).toNumber = a.toNumber ^ n := by
  ext
  · rw [fst_toNumber, fst_pow, fst_toNumber]
    exact pow_eq a.value n
  · rw [snd_toNumber, snd_pow, fst_toNumber, snd_toNumber, Nat.pred_eq_sub_one, nsmul_eq_mul, smul_eq_mul]
    refine (powerDerivative_constant a hn).trans ?_
    ring

theorem toNumber_sqr (a : Dual ℚ) : (call .sqr [a]).toNumber = a.toNumber * a.toNumber := by
  have hvalue : (call .sqr [a]).value = a.value * a.value := rfl
  have hslope : (call .sqr [a]).derivative = Scalar.two * a.derivative * a.value := rfl
  ext
  · rw [fst_toNumber, fst_mul, fst_toNumber, hvalue]
  · rw [snd_toNumber, DualNumber.snd_mul, fst_toNumber, snd_toNumber, hslope, two_eq]
    ring

end Dual

namespace Expr

section Ring
variable {R : Type} [CommRing R] [Algebra ℚ R] {p : List R} {a b : Expr ℚ}

/-- The value of a formula at a point of the ring. A quotient is the only solution of `q * d = n`. -/
inductive Evaluates (p : List R) : Expr ℚ → R → Prop
  | const (c : ℚ) : Evaluates p (.const c) (algebraMap ℚ R c)
  | var {slot : Nat} {x : R} (hx : p[slot]? = some x) : Evaluates p (.var slot) x
  | neg {a : Expr ℚ} {x : R} (ha : Evaluates p a x) : Evaluates p (.neg a) (-x)
  | add {a b : Expr ℚ} {x y : R} (ha : Evaluates p a x) (hb : Evaluates p b y) :
    Evaluates p (.binary .add a b) (x + y)
  | subtract {a b : Expr ℚ} {x y : R} (ha : Evaluates p a x) (hb : Evaluates p b y) :
    Evaluates p (.binary .subtract a b) (x - y)
  | multiply {a b : Expr ℚ} {x y : R} (ha : Evaluates p a x) (hb : Evaluates p b y) :
    Evaluates p (.binary .multiply a b) (x * y)
  | divide {a b : Expr ℚ} {n d q : R} (ha : Evaluates p a n) (hb : Evaluates p b d) (hq : q * d = n)
    (honly : ∀ r, r * d = n → r = q) : Evaluates p (.binary .divide a b) q
  | power {a : Expr ℚ} {x : R} {c : ℚ} {n : Nat} (ha : Evaluates p a x) (hc : c = n) :
    Evaluates p (.binary .power a (.const c)) (x ^ n)
  | square {a : Expr ℚ} {x : R} (ha : Evaluates p a x) : Evaluates p (.call .sqr [a]) (x * x)

theorem Evaluates.unique {x y : R} (hx : Evaluates p a x) (hy : Evaluates p a y) : x = y := by
  induction hx generalizing y with
  | const c =>
    cases hy
    rfl
  | var h =>
    cases hy with
    | var h' => exact Option.some.inj (h.symm.trans h')
  | neg _ iha =>
    cases hy with
    | neg ha => rw [iha ha]
  | add _ _ iha ihb =>
    cases hy with
    | add ha hb => rw [iha ha, ihb hb]
  | subtract _ _ iha ihb =>
    cases hy with
    | subtract ha hb => rw [iha ha, ihb hb]
  | multiply _ _ iha ihb =>
    cases hy with
    | multiply ha hb => rw [iha ha, ihb hb]
  | divide _ _ hq _ iha ihb =>
    cases hy with
    | divide ha hb _ honly =>
      rw [iha ha, ihb hb] at hq
      exact honly _ hq
  | power _ hc iha =>
    cases hy with
    | power ha hc' =>
      have hn := hc.symm.trans hc'
      rw [iha ha, Nat.cast_inj.mp hn]
  | square _ iha =>
    cases hy with
    | square ha => rw [iha ha]

end Ring

/-- The point with the coordinate of one slot moved by `ε`. -/
def moved (p : List ℚ) (v : Nat) : List ℚ[ε] :=
  p.mapIdx fun slot x => if slot = v then inl x + ε else inl x

theorem getElem?_moved {slot : Nat} {p : List ℚ} {x : ℚ} (h : p[slot]? = some x) (v : Nat) :
    (moved p v)[slot]? = some (if slot = v then inl x + ε else inl x) := by
  rw [moved, List.getElem?_mapIdx, h]
  rfl

section Rational
variable [Inexact] {p : List ℚ} {a b : Expr ℚ}

/-- The formula is made of exact operations, the point has its slots, and none of its divisors is zero
there. -/
inductive Regular (p : List ℚ) : Expr ℚ → Prop
  | const (c : ℚ) : Regular p (.const c)
  | var {slot : Nat} (h : slot < p.length) : Regular p (.var slot)
  | neg {a : Expr ℚ} (ha : Regular p a) : Regular p (.neg a)
  | add {a b : Expr ℚ} (ha : Regular p a) (hb : Regular p b) : Regular p (.binary .add a b)
  | subtract {a b : Expr ℚ} (ha : Regular p a) (hb : Regular p b) : Regular p (.binary .subtract a b)
  | multiply {a b : Expr ℚ} (ha : Regular p a) (hb : Regular p b) : Regular p (.binary .multiply a b)
  | divide {a b : Expr ℚ} (ha : Regular p a) (hb : Regular p b) (hne : b.eval p ≠ 0) :
    Regular p (.binary .divide a b)
  | power {a : Expr ℚ} {n : Nat} (ha : Regular p a) (hn : 1 ≤ n) :
    Regular p (.binary .power a (.const n))
  | square {a : Expr ℚ} (ha : Regular p a) : Regular p (.call .sqr [a])

theorem coordinate_of_lt {slot : Nat} (h : slot < p.length) : coordinate p slot = p[slot] := by
  rw [coordinate, List.getElem?_eq_getElem h, Option.getD_some]

theorem Regular.evaluates_eval (h : Regular p a) : Evaluates p a (a.eval p) := by
  induction h with
  | const c => exact .const c
  | @var slot h =>
    rw [eval, coordinate_of_lt h]
    exact .var (List.getElem?_eq_getElem h)
  | neg _ iha => exact .neg iha
  | add _ _ iha ihb => exact .add iha ihb
  | subtract _ _ iha ihb => exact .subtract iha ihb
  | multiply _ _ iha ihb => exact .multiply iha ihb
  | divide _ _ hne iha ihb =>
    exact .divide iha ihb (div_mul_cancel₀ _ hne) fun r hr => (eq_div_iff hne).mpr hr
  | @power a n _ _ iha =>
    have hpow : (binary .power a (.const (n : ℚ))).eval p = a.eval p ^ n := Dual.pow_eq _ n
    rw [hpow]
    exact .power iha rfl
  | square _ iha => exact .square iha

/-- By induction on the formula, one rule of differentiation for each operation. -/
theorem Regular.evaluates (h : Regular p a) (v : Nat) : Evaluates (moved p v) a (a.dual p v).toNumber := by
  induction h with
  | const c =>
    rw [dual, Dual.toNumber_constant]
    exact .const c
  | @var slot h =>
    rw [dual, coordinate_of_lt h, Dual.toNumber_var]
    exact .var (getElem?_moved (List.getElem?_eq_getElem h) v)
  | neg _ iha =>
    rw [dual, Dual.toNumber_neg]
    exact .neg iha
  | add _ _ iha ihb =>
    rw [dual, Dual.toNumber_add]
    exact .add iha ihb
  | subtract _ _ iha ihb =>
    rw [dual, Dual.toNumber_subtract]
    exact .subtract iha ihb
  | multiply _ _ iha ihb =>
    rw [dual, Dual.toNumber_multiply]
    exact .multiply iha ihb
  | @divide a b _ _ hne iha ihb =>
    rw [← value_dual b p v] at hne
    have hq := Dual.toNumber_divide_mul (a.dual p v) hne
    exact .divide iha ihb hq fun r hr => Dual.toNumber_cancel hne (hr.trans hq.symm)
  | @power a n _ hn iha =>
    rw [dual, dual, Dual.toNumber_power _ hn]
    exact .power iha rfl
  | square _ iha =>
    rw [dual, dualArgs, dualArgs, Dual.toNumber_sqr]
    exact .square iha

/-- Evaluating a formula at a regular point gives the value of its dual. When the coordinate of a slot is moved by
`ε`, the only number that evaluating gives is this value plus `ε` times the derivative of the dual. -/
theorem evaluates_dual (h : Regular p a) (v : Nat) :
    Evaluates p a (a.dual p v).value ∧
    ∀ y : ℚ[ε], Evaluates (moved p v) a y ↔ y = inl (a.dual p v).value + (a.dual p v).derivative • ε := by
  have hvalue := h.evaluates v
  refine ⟨?_, fun y => ⟨fun hy => hy.unique hvalue, ?_⟩⟩
  · rw [value_dual]
    exact h.evaluates_eval
  · rintro rfl
    exact hvalue

end Rational

def cubeOverLine : Expr ℚ :=
  .binary .add
    (.binary .divide (.binary .power (.binary .subtract (.var 0) (.var 1)) (.const (3 : Nat))) (.var 1))
    (.call .sqr [.var 0])

/-- The base is negative where it is raised to the third power. -/
theorem evaluates_dual_cube :
    letI : Inexact := default
    Regular [1, 2] cubeOverLine ∧ (cubeOverLine.dual [1, 2] 0).value = 1 / 2 ∧
      (cubeOverLine.dual [1, 2] 0).derivative = 7 / 2 ∧
      Evaluates (moved [1, 2] 0) cubeOverLine (inl (1 / 2) + (7 / 2 : ℚ) • ε) := by
  let _ : Inexact := default
  have hvalue : (cubeOverLine.dual [1, 2] 0).value = 1 / 2 := by decide +kernel
  have hslope : (cubeOverLine.dual [1, 2] 0).derivative = 7 / 2 := by decide +kernel
  have hregular : Regular [1, 2] cubeOverLine := by
    refine .add (.divide (.power (.subtract (.var ?_) (.var ?_)) ?_) (.var ?_) ?_) (.square (.var ?_))
    all_goals decide +kernel
  obtain ⟨-, hmoved⟩ := evaluates_dual hregular 0
  refine ⟨hregular, hvalue, hslope, (hmoved _).mpr ?_⟩
  rw [hvalue, hslope]

end Expr
end PlotFormula
