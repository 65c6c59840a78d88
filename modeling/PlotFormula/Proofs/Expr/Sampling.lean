import PlotFormula.Proofs.Double.Arithmetic
import PlotFormula.Proofs.Expr.Evaluation

/-! # Sampled intervals

The points of a sampled interval are computed by a difference, a quotient, a product and a sum, each of them
rounded. Rounding keeps the order, so the points ascend from the start if the difference of the ends is finite.
Nothing makes the last of them the end: it may miss the end by the roundings, and it is infinite where a product
overflows. But if it is the end, the points cover the interval.
-/
namespace PlotFormula.Expr
open Double (rational value)

structure Ascends (start : Float) (xs : List Float) : Prop where
  number : ∀ x ∈ xs, x.isNaN = false
  sorted : xs.Pairwise fun x y => x.le y = true
  above : ∀ x ∈ xs, start.le x = true
  first : ∃ x, xs.head? = some x ∧ (x == start) = true

/-- The points ascend from the start to the end. -/
structure Covers (start stop : Float) (xs : List Float) : Prop where
  finite : ∀ x ∈ xs, x.isFinite = true
  sorted : xs.Pairwise fun x y => x.le y = true
  within : ∀ x ∈ xs, start.le x = true ∧ x.le stop = true
  first : ∃ x, xs.head? = some x ∧ (x == start) = true
  last : ∃ x, xs.getLast? = some x ∧ (x == stop) = true

def step (start stop : Float) (n : Nat) : Float := (stop - start) / Scalar.ofNat n

def point (start stop : Float) (n i : Nat) : Float := start + step start stop n * Scalar.ofNat i

theorem xs_sampleInterval (a : Expr Float) {start stop : Float} {n : Nat} (hn : 0 < n) :
    (a.sampleInterval start stop n).map Sample.x = (List.range (n + 1)).map (point start stop n) := by
  rw [sampleInterval, if_neg hn.ne', List.map_map]
  rfl

theorem head?_points (start stop : Float) (n : Nat) :
    ((List.range (n + 1)).map (point start stop n)).head? = some (point start stop n 0) := by
  rw [List.range_succ_eq_map]
  rfl

theorem getLast?_points (start stop : Float) (n : Nat) :
    ((List.range (n + 1)).map (point start stop n)).getLast? = some (point start stop n n) := by
  rw [List.getLast?_map, List.range_succ, List.getLast?_concat]
  rfl

section
variable {start stop : Float} {n : Nat} (hstart : start.isFinite = true) (hstop : stop.isFinite = true)
  (hle : rational start ≤ rational stop) (hn : 0 < n) (hword : n < 2 ^ 64)
include hstart hstop hle hn hword

theorem step_nonneg (hlength : (stop - start).isFinite = true) :
    (step start stop n).isFinite = true ∧ 0 ≤ rational (step start stop n) := by
  obtain ⟨hzero, hzero'⟩ := Double.rational_ofNat (n := 0) (by decide)
  have hone' := (Double.rational_ofNat (n := 1) (by decide)).2
  obtain ⟨-, hcount, hcount'⟩ := Double.ofNat_mono hn hword
  rw [Nat.cast_zero] at hzero'
  rw [hone', Nat.cast_one] at hcount'
  have hpositive : 0 ≤ rational (stop - start) := by
    have hrounded := (Double.isRounded_ofNat 0).mono (Double.isRounded_sub hstop hstart) (by push_cast; linarith)
    rw [Double.value_le_iff hzero hlength, hzero'] at hrounded
    exact hrounded
  have hquotient := Double.isRounded_div hlength hcount (by linarith)
  have hbetween := hquotient.between hzero hlength (by rw [hzero']; positivity) (div_le_self hpositive hcount')
  rw [hzero'] at hbetween
  exact ⟨hbetween.1, hbetween.2.1⟩

theorem point_mono (hlength : (stop - start).isFinite = true) {i j : Nat} (hij : i ≤ j) (hj : j ≤ n) :
    (point start stop n i).isNaN = false ∧ value (point start stop n i) ≤ value (point start stop n j) := by
  obtain ⟨hfinite, hnonneg⟩ := step_nonneg hstart hstop hle hn hword hlength
  obtain ⟨hi, hj, hcounts⟩ := Double.ofNat_mono hij (hj.trans_lt hword)
  have hproduct := Double.isRounded_mul hfinite hi
  have hproduct' := Double.isRounded_mul hfinite hj
  have hmono := hproduct.mono hproduct' (mul_le_mul_of_nonneg_left hcounts hnonneg)
  exact Double.add_mono hstart hproduct.number hproduct'.number hmono

theorem point_zero (hlength : (stop - start).isFinite = true) :
    value (point start stop n 0) = value start := by
  have hfinite := (step_nonneg hstart hstop hle hn hword hlength).1
  obtain ⟨hzero, hzero'⟩ := Double.rational_ofNat (n := 0) (by decide)
  have hproduct := Double.isRounded_mul hfinite hzero
  rw [hzero', Nat.cast_zero, mul_zero] at hproduct
  obtain ⟨hproduct, hvalue⟩ := hproduct.exact (by exact_mod_cast Double.representable_nat (by decide : 0 < 2 ^ 53))
  have hsum := Double.isRounded_add hstart hproduct
  rw [hvalue, add_zero] at hsum
  have hself := Double.isRounded_rational hstart
  exact le_antisymm (hsum.mono hself le_rfl) (hself.mono hsum le_rfl)

theorem ascends_points (hlength : (stop - start).isFinite = true) :
    Ascends start ((List.range (n + 1)).map (point start stop n)) := by
  have hmono {i j : Nat} := point_mono hstart hstop hle hn hword hlength (i := i) (j := j)
  have hzero := point_zero hstart hstop hle hn hword hlength
  have hnumber {i : Nat} (hi : i ≤ n) := (hmono (Nat.le_refl i) hi).1
  have hstart' := Double.isNaN_of_isFinite hstart
  constructor
  case number =>
    intro x hx
    obtain ⟨i, hi, rfl⟩ := List.mem_map.mp hx
    exact hnumber (Nat.lt_succ_iff.mp (List.mem_range.mp hi))
  case sorted =>
    rw [List.pairwise_map]
    refine List.pairwise_lt_range.imp_of_mem fun hi hj hij => ?_
    have hi := Nat.lt_succ_iff.mp (List.mem_range.mp hi)
    have hj := Nat.lt_succ_iff.mp (List.mem_range.mp hj)
    exact (Double.le_iff (hnumber hi) (hnumber hj)).mpr (hmono hij.le hj).2
  case above =>
    intro x hx
    obtain ⟨i, hi, rfl⟩ := List.mem_map.mp hx
    have hi := Nat.lt_succ_iff.mp (List.mem_range.mp hi)
    rw [Double.le_iff hstart' (hnumber hi), ← hzero]
    exact (hmono i.zero_le hi).2
  case first =>
    exact ⟨_, head?_points start stop n, (Double.beq_iff (hnumber n.zero_le) hstart').mpr hzero⟩

/-- If the last point is the end, nothing has overflowed on the way to it, and no point lies beyond it. -/
theorem covers_points_iff :
    Covers start stop ((List.range (n + 1)).map (point start stop n)) ↔ (point start stop n n == stop) = true := by
  constructor
  · intro h
    obtain ⟨x, hx, hlast⟩ := h.last
    rw [getLast?_points, Option.some_inj] at hx
    rwa [hx]
  · intro hlast
    have hstop' := Double.isNaN_of_isFinite hstop
    have hnumber := Double.isNaN_of_beq hlast
    have hvalue := (Double.beq_iff hnumber hstop').mp hlast
    -- The last point is finite, hence so is everything it is calculated from.
    have hfinite : (point start stop n n).isFinite = true := by
      rw [Double.isFinite_iff hnumber, hvalue]
      exact (Double.isFinite_iff hstop').mp hstop
    have hlength := Double.finite_of_div (Double.finite_of_mul (Double.finite_of_add hfinite).2).1
    have hascends := ascends_points hstart hstop hle hn hword hlength
    have hbelow : ∀ x ∈ (List.range (n + 1)).map (point start stop n), x.le stop = true := by
      intro x hx
      obtain ⟨i, hi, rfl⟩ := List.mem_map.mp hx
      have hi := Nat.lt_succ_iff.mp (List.mem_range.mp hi)
      obtain ⟨hnumber, hmono⟩ := point_mono hstart hstop hle hn hword hlength hi le_rfl
      rw [Double.le_iff hnumber hstop', ← hvalue]
      exact hmono
    refine ⟨?_, hascends.sorted, fun x hx => ⟨hascends.above x hx, hbelow x hx⟩, hascends.first, ?_⟩
    · intro x hx
      have hnumber := hascends.number x hx
      have hle := (Double.le_iff (Double.isNaN_of_isFinite hstart) hnumber).mp (hascends.above x hx)
      have hle' := (Double.le_iff hnumber hstop').mp (hbelow x hx)
      exact Double.finite_of_between hnumber hstart hstop hle hle'
    · exact ⟨_, getLast?_points start stop n, hlast⟩

theorem last_of_exact (hcount : n < 2 ^ 53) (hlength : (stop - start).isFinite = true)
    (hdifference : rational (stop - start) = rational stop - rational start)
    (hparts : rational (step start stop n) * n = rational (stop - start)) :
    (point start stop n n == stop) = true := by
  have hfinite := (step_nonneg hstart hstop hle hn hword hlength).1
  obtain ⟨hfinite', hcount'⟩ := Double.rational_ofNat hcount
  have hproduct := Double.isRounded_mul hfinite hfinite'
  rw [hcount', hparts] at hproduct
  obtain ⟨hproduct, hvalue⟩ := hproduct.exact (Double.representable_rational hlength)
  have hsum := Double.isRounded_add hstart hproduct
  rw [hvalue, hdifference, add_sub_cancel] at hsum
  change Double.IsRounded (rational stop) (point start stop n n) at hsum
  have hself := Double.isRounded_rational hstop
  rw [Double.beq_iff hsum.number hself.number]
  exact le_antisymm (hsum.mono hself le_rfl) (hself.mono hsum le_rfl)

end

theorem point_overflow {start stop : Float} {n : Nat} (hstart : start.isFinite = true) (hstop : stop.isFinite = true)
    (hword : n < 2 ^ 64) (hlength : (stop - start).isFinite = false) : (point start stop n 0).isNaN = true := by
  have hnumber := (Double.isRounded_sub hstop hstart).number
  have hcount := (Double.ofNat_mono le_rfl hword).1
  have hzero : (Scalar.ofNat 0 : Float).toModel.unpack = .zero .positive := Double.unpack_pack_zero .positive
  rcases Double.finite_or_infinite hnumber with hfinite | ⟨s, hinfinite⟩
  · rw [hfinite] at hlength
    cases hlength
  · obtain ⟨t, hstep⟩ := Double.div_infinity hinfinite hcount
    exact Double.isNaN_add_mul hstep hzero

/-- There is a sample at each end of the parts, with the dual of the formula there. If the difference of the ends
is finite, the samples ascend from the start, and if it is not, the first of them is none. They cover the interval
exactly if the last of them is at the end, and it is there if the difference and its parts are exact. -/
theorem sampleInterval_covers_iff (a : Expr Float) {start stop : Float} {n : Nat} (hstart : start.isFinite = true)
    (hstop : stop.isFinite = true) (hlt : start.lt stop = true) (hn : 0 < n) (hword : n < 2 ^ 64) :
    let samples := a.sampleInterval start stop n
    let xs := samples.map Sample.x
    samples.length = n + 1 ∧
    (∀ s ∈ samples, s.dual = a.dual [s.x] 0) ∧
    ((stop - start).isFinite = true → Ascends start xs) ∧
    ((stop - start).isFinite = false → ∃ x, xs.head? = some x ∧ x.isNaN = true) ∧
    (Covers start stop xs ↔ ∃ x, xs.getLast? = some x ∧ (x == stop) = true) ∧
    (n < 2 ^ 53 → (stop - start).isFinite = true → rational (stop - start) = rational stop - rational start →
      rational ((stop - start) / Scalar.ofNat n) * n = rational (stop - start) → Covers start stop xs) := by
  have hle : rational start ≤ rational stop := by
    rw [Double.lt_iff (Double.isNaN_of_isFinite hstart) (Double.isNaN_of_isFinite hstop)] at hlt
    exact (Double.value_le_iff hstart hstop).mp hlt.le
  have hcovers := covers_points_iff hstart hstop hle hn hword
  dsimp only
  rw [xs_sampleInterval a hn]
  refine ⟨?_, ?_, ascends_points hstart hstop hle hn hword, ?_, ?_, ?_⟩
  · rw [sampleInterval, if_neg hn.ne', List.length_map, List.length_range]
  · intro s hs
    exact congrArg Sample.dual (eq_sampleAt_of_mem hs)
  · intro hlength
    exact ⟨_, head?_points start stop n, point_overflow hstart hstop hword hlength⟩
  · rw [hcovers, getLast?_points]
    simp
  · intro hcount hlength hdifference hparts
    exact hcovers.mpr (last_of_exact hstart hstop hle hn hword hcount hlength hdifference hparts)

theorem sampleInterval_covers_quarters :
    (0 : Float).isFinite = true ∧ (1 : Float).isFinite = true ∧ (0 : Float).lt 1 = true ∧ 0 < 4 ∧ 4 < 2 ^ 64 ∧
      ((var 0 : Expr Float).sampleInterval 0 1 4).length = 5 ∧
      Covers 0 1 (((var 0 : Expr Float).sampleInterval 0 1 4).map Sample.x) := by
  have hlast : (point 0 1 4 4 == 1) = true := by decide +kernel
  have hstart : (0 : Float).isFinite = true := by decide
  have hstop : (1 : Float).isFinite = true := by decide
  have hlt : (0 : Float).lt 1 = true := by decide
  obtain ⟨hlength, -, -, -, hcovers, -⟩ :=
    sampleInterval_covers_iff (var 0) hstart hstop hlt (by decide : 0 < 4) (by decide)
  refine ⟨hstart, hstop, hlt, by decide, by decide, hlength, hcovers.mpr ⟨_, ?_, hlast⟩⟩
  rw [xs_sampleInterval _ (by decide), getLast?_points]

/-- A difference that overflows loses the start and the end, and rounded parts alone may miss the end. -/
theorem sampleInterval_misses :
    ((-1e308 : Float).isFinite = true ∧ (1e308 : Float).isFinite = true ∧ (-1e308 : Float).lt 1e308 = true ∧
      ¬ Covers (-1e308) 1e308 (((var 0 : Expr Float).sampleInterval (-1e308) 1e308 1).map Sample.x)) ∧
    (0 : Float).isFinite = true ∧ (1 : Float).isFinite = true ∧ (0 : Float).lt 1 = true ∧
      ¬ Covers 0 1 (((var 0 : Expr Float).sampleInterval 0 1 49).map Sample.x) := by
  have hoverflow : ¬ Covers (-1e308) 1e308 (((var 0 : Expr Float).sampleInterval (-1e308) 1e308 1).map Sample.x) := by
    intro h
    obtain ⟨x, hx, hfirst⟩ := h.first
    rw [xs_sampleInterval _ (by decide), head?_points, Option.some_inj] at hx
    have hmiss : (point (-1e308) 1e308 1 0 == -1e308) = false := by decide +kernel
    rw [← hx, hmiss] at hfirst
    cases hfirst
  have hdrift : ¬ Covers 0 1 (((var 0 : Expr Float).sampleInterval 0 1 49).map Sample.x) := by
    intro h
    obtain ⟨x, hx, hlast⟩ := h.last
    rw [xs_sampleInterval _ (by decide), getLast?_points, Option.some_inj] at hx
    have hmiss : (point 0 1 49 49 == 1) = false := by decide +kernel
    rw [← hx, hmiss] at hlast
    cases hlast
  refine ⟨⟨by decide +kernel, by decide +kernel, by decide +kernel, hoverflow⟩, ?_⟩
  exact ⟨by decide, by decide, by decide, hdrift⟩

end PlotFormula.Expr
