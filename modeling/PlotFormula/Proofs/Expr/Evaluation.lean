import PlotFormula.Double.Basic
import PlotFormula.Expr.Sample

/-! # What evaluation reads

A value is computed by one walk of the tree alone and by another together with a slope. The walks apply
the same operations to the same coordinates, so every way to a value comes to the same one. Neither reads
a coordinate of which the tree has no variable.
-/
namespace PlotFormula.Expr
variable {α : Type} [Scalar α]

@[simp] theorem value_dual (a : Expr α) (p : List α) (v : Nat) : (a.dual p v).value = a.eval p := by
  induction a with
  | const c => rfl
  | var slot => rfl
  | neg a ih => rw [dual, eval, Dual.neg, ih]
  | binary op a b iha ihb => rw [dual, eval, Dual.binary, iha, ihb]
  | call f args ih =>
    have hvalues : (dualArgs p v args).map Dual.value = evalArgs p args := by
      rw [dualArgs_eq, evalArgs_eq, List.map_map]
      exact List.map_congr_left ih
    rw [dual, eval, Dual.call, hvalues]
  | invalid => rfl

@[simp] theorem length_evalPoints (a : Expr α) (points : List (List α)) :
    (a.evalPoints points).length = points.length := List.length_map _

@[simp] theorem length_dualPoints (a : Expr α) (points : List (List α)) (v : Nat) :
    (a.dualPoints points v).length = points.length := List.length_map _

theorem getElem?_evalPoints (a : Expr α) (points : List (List α)) (i : Nat) :
    (a.evalPoints points)[i]? = points[i]?.map fun p => a.eval p := List.getElem?_map ..

theorem getElem?_dualPoints (a : Expr α) (points : List (List α)) (v i : Nat) :
    (a.dualPoints points v)[i]? = points[i]?.map fun p => a.dual p v := List.getElem?_map ..

theorem eq_sampleAt_of_mem {a : Expr α} {start stop : α} {resolution : Nat} {s : Sample α}
    (h : s ∈ a.sampleInterval start stop resolution) : s = a.sampleAt s.x := by
  unfold sampleInterval at h
  split at h
  · obtain rfl := List.mem_singleton.mp h
    rfl
  · obtain ⟨i, -, rfl⟩ := List.mem_map.mp h
    rfl

/-- Evaluation comes to one value of a formula at a point: alone or beside the slope along any slot, at the
point itself, in its place of a list, or as a sample. -/
theorem evaluations_agree (a : Expr α) (points : List (List α)) (v : Nat) (start stop : α)
    (resolution : Nat) :
    (a.dualPoints points v).length = (a.evalPoints points).length ∧
    (a.evalPoints points).length = points.length ∧
    (∀ (i : Nat) (p : List α), points[i]? = some p →
      (a.dual p v).value = a.eval p ∧
      (a.evalPoints points)[i]? = some (a.eval p) ∧
      ∃ d, (a.dualPoints points v)[i]? = some d ∧ d.value = a.eval p ∧ d.derivative = a.derivative p v) ∧
    ∀ s ∈ a.sampleInterval start stop resolution, s.dual.value = a.eval [s.x] := by
  refine ⟨by rw [length_dualPoints, length_evalPoints], length_evalPoints a points, ?_, ?_⟩
  · intro i p hp
    refine ⟨value_dual a p v, ?_, a.dual p v, ?_, value_dual a p v, rfl⟩
    · rw [getElem?_evalPoints, hp, Option.map_some]
    · rw [getElem?_dualPoints, hp, Option.map_some]
  · intro s hs
    rw [eq_sampleAt_of_mem hs]
    exact value_dual a [s.x] 0

def maxWithSquare : Expr Float := .call .max [.var 0, .binary .multiply (.var 0) (.var 0)]

theorem evaluations_agree_max :
    ([[3], []] : List (List Float))[0]? = some [3] ∧
      (maxWithSquare.dual [3] 0).value = maxWithSquare.eval [3] ∧
      (maxWithSquare.evalPoints [[3], []])[0]? = some 9 ∧
      (∃ d, (maxWithSquare.dualPoints [[3], []] 0)[0]? = some d ∧ d.value = 9 ∧ d.derivative = 6) ∧
      maxWithSquare.sampleAt 0 ∈ maxWithSquare.sampleInterval 0 1 2 ∧
      (maxWithSquare.sampleAt 0).dual.value = maxWithSquare.eval [0] := by
  have heval : maxWithSquare.eval [3] = 9 := by decide +kernel
  have hslope : maxWithSquare.derivative [3] 0 = 6 := by decide +kernel
  have hsample : maxWithSquare.sampleAt 0 ∈ maxWithSquare.sampleInterval 0 1 2 := by
    have hfirst : (0 : Float) = 0 + (1 - 0) / Scalar.ofNat 2 * Scalar.ofNat 0 := by decide +kernel
    exact List.mem_map.mpr ⟨0, by decide, by rw [← hfirst]⟩
  obtain ⟨-, -, hpoints, hsamples⟩ := evaluations_agree maxWithSquare [[3], []] 0 0 1 2
  obtain ⟨hwalks, hvalue, hdual⟩ := hpoints 0 [3] rfl
  rw [heval] at hvalue hdual
  rw [hslope] at hdual
  exact ⟨rfl, hwalks, hvalue, hdual, hsample, hsamples _ hsample⟩

theorem dual_congr {a : Expr α} {p q : List α} (h : ∀ s, a.dependsOn s = true → p[s]? = q[s]?) (v : Nat) :
    a.dual p v = a.dual q v := by
  induction a with
  | const c => rfl
  | var slot =>
    have hslot : p[slot]? = q[slot]? := h slot (by simp [dependsOn])
    rw [dual, dual, coordinate, coordinate, hslot]
  | neg a ih => rw [dual, dual, ih h]
  | binary op a b iha ihb =>
    have ha := iha fun s hs => h s (by simp [dependsOn, hs])
    have hb := ihb fun s hs => h s (by simp [dependsOn, hs])
    rw [dual, dual, ha, hb]
  | call f args ih =>
    have hargs : dualArgs p v args = dualArgs q v args := by
      rw [dualArgs_eq, dualArgs_eq]
      refine List.map_congr_left fun a ha => ih a ha fun s hs => h s ?_
      rw [dependsOn, someDependsOn_eq]
      exact List.any_eq_true.mpr ⟨a, ha, hs⟩
    rw [dual, dual, hargs]
  | invalid => rfl

theorem eval_congr {a : Expr α} {p q : List α} (h : ∀ s, a.dependsOn s = true → p[s]? = q[s]?) :
    a.eval p = a.eval q := by
  rw [← value_dual a p 0, ← value_dual a q 0, dual_congr h]

omit [Scalar α] in
theorem isConstant_iff {a : Expr α} : a.isConstant = true ↔ ∀ s, a.dependsOn s = false := by
  induction a with
  | const c => simp [isConstant, dependsOn]
  | var slot => simp [isConstant, dependsOn]
  | neg a ih => rw [isConstant, ih]; rfl
  | binary op a b iha ihb =>
    rw [isConstant, Bool.and_eq_true, iha, ihb, ← forall_and]
    exact forall_congr' fun s => by rw [dependsOn, Bool.or_eq_false_iff]
  | call f args ih =>
    have hargs (s : Nat) : (call f args).dependsOn s = false ↔ ∀ a ∈ args, a.dependsOn s = false := by
      rw [dependsOn, someDependsOn_eq, List.any_eq_false]
      exact forall₂_congr fun a _ => iff_of_eq (Bool.not_eq_true _)
    rw [isConstant, areConstant_eq, List.all_eq_true]
    constructor
    · intro h s
      exact (hargs s).mpr fun a ha => (ih a ha).mp (h a ha) s
    · intro h a ha
      exact (ih a ha).mpr fun s => (hargs s).mp (h s) a ha
  | invalid => simp [isConstant, dependsOn]

/-- Evaluation reads no other coordinates than those that a tree depends on, and none of a constant
tree. -/
theorem evaluation_reads (a : Expr α) :
    (∀ p q : List α, (∀ s, a.dependsOn s = true → p[s]? = q[s]?) →
      a.eval p = a.eval q ∧ ∀ v, a.dual p v = a.dual q v) ∧
    (a.isConstant = true ↔ ∀ s, a.dependsOn s = false) ∧
    (a.isConstant = true → ∀ p q : List α, a.eval p = a.eval q) := by
  refine ⟨fun p q h => ⟨eval_congr h, dual_congr h⟩, isConstant_iff, ?_⟩
  intro ha p q
  apply eval_congr
  intro s hs
  rw [isConstant_iff.mp ha s] at hs
  exact absurd hs Bool.false_ne_true

theorem evaluation_reads_max :
    (∀ s, maxWithSquare.dependsOn s = true → ([3, 5] : List Float)[s]? = ([3] : List Float)[s]?) ∧
      maxWithSquare.eval [3, 5] = maxWithSquare.eval [3] ∧
      maxWithSquare.dual [3, 5] 1 = maxWithSquare.dual [3] 1 ∧
      (call .pi [] : Expr Float).isConstant = true ∧
      (call .pi [] : Expr Float).eval [3, 5] = (call .pi []).eval [] := by
  have hslots : ∀ s, maxWithSquare.dependsOn s = true → ([3, 5] : List Float)[s]? = ([3] : List Float)[s]? := by
    intro s hs
    obtain rfl : 0 = s := by simpa [maxWithSquare, dependsOn, someDependsOn] using hs
    rfl
  obtain ⟨hvalue, hdual⟩ := (evaluation_reads maxWithSquare).1 [3, 5] [3] hslots
  exact ⟨hslots, hvalue, hdual 1, rfl, (evaluation_reads (call .pi [])).2.2 rfl [3, 5] []⟩

end PlotFormula.Expr
