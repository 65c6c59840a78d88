import PlotFormula.Proofs.Catalog.Extremum
import PlotFormula.Proofs.Catalog.Positions
import PlotFormula.Proofs.Expr.Evaluation
import PlotFormula.Proofs.Grammar.WellFormed

/-! # Calls that fit

A call is checked against the arity of its function once, when it is made. Evaluation is repeated here with no
other way out of a call: one whose arguments do not fit ends it, and so does a read that is out of range. On a
tree of checked calls it comes to what evaluation comes to.
-/
namespace PlotFormula

namespace Func
variable {α : Type} [Scalar α]

def fittingValue? (f : Func) (args : List α) : Option α :=
  if f.arity.accepts args.length then f.rule.valueAt? args else none

def fittingSlope? (f : Func) (args slopes : List α) : Option α :=
  if f.arity.accepts args.length = true ∧ slopes.length = args.length then f.rule.slopeAt? args slopes else none

theorem fittingValue?_eq {f : Func} {args : List α} (h : f.arity.accepts args.length = true) :
    f.fittingValue? args = some (f.value args) := by
  rw [fittingValue?, if_pos h, rule_valueAt? h]

theorem fittingSlope?_eq {f : Func} {args slopes : List α} (h : f.arity.accepts args.length = true)
    (hlength : slopes.length = args.length) : f.fittingSlope? args slopes = some (f.slope args slopes) := by
  rw [fittingSlope?, if_pos ⟨h, hlength⟩, rule_slopeAt? h hlength]

end Func

namespace Expr
variable {α : Type}

/-- The trees that can be made. A call is made by a check. -/
inductive Built : Expr α → Prop
  | const (c : α) : Built (const c)
  | var (slot : Nat) : Built (var slot)
  | neg {a : Expr α} (h : Built a) : Built (neg a)
  | binary {op : Op} {a b : Expr α} (ha : Built a) (hb : Built b) : Built (binary op a b)
  | call {f : Func} {args : List (Expr α)} {a : Expr α} (hcall : call? f args = .ok a)
      (h : ∀ b ∈ args, Built b) : Built a
  | invalid : Built invalid

theorem call_of_call? {f : Func} {args : List (Expr α)} {a : Expr α} (h : call? f args = .ok a) :
    f.arity.accepts args.length = true ∧ a = call f args := by
  unfold call? at h
  split at h
  next hf => exact ⟨hf, (Except.ok.inj h).symm⟩
  next => cases h

theorem WellFormed.built {vars : List Char} {a : Expr Float} (h : a.WellFormed vars) : a.Built := by
  induction h with
  | const => exact .const _
  | var => exact .var _
  | neg _ ih => exact ih.neg
  | binary _ _ iha ihb => exact iha.binary ihb
  | call hf _ ih => exact .call (if_pos hf) ih

variable [Scalar α]

mutual

/-- The value at a point, if all calls on the way to it fit. -/
def fittingEval? (p : List α) : Expr α → Option α
  | const c => some c
  | var slot => some (coordinate p slot)
  | neg a => do return -(← a.fittingEval? p)
  | binary op a b => do return op.apply (← a.fittingEval? p) (← b.fittingEval? p)
  | call f args => do f.fittingValue? (← fittingEvalArgs? p args)
  | invalid => some Scalar.nan

def fittingEvalArgs? (p : List α) : List (Expr α) → Option (List α)
  | [] => some []
  | a :: as => do return (← a.fittingEval? p) :: (← fittingEvalArgs? p as)

end

mutual

def fittingDual? (p : List α) (v : Nat) : Expr α → Option (Dual α)
  | const c => some (.constant c)
  | var slot => some ⟨coordinate p slot, if slot = v then Scalar.one else Scalar.zero⟩
  | neg a => do return (← a.fittingDual? p v).neg
  | binary op a b => do return .binary op (← a.fittingDual? p v) (← b.fittingDual? p v)
  | call f args => do
    let duals ← fittingDualArgs? p v args
    let values := duals.map Dual.value
    let slopes := duals.map Dual.derivative
    return ⟨← f.fittingValue? values, ← f.fittingSlope? values slopes⟩
  | invalid => some .nan

def fittingDualArgs? (p : List α) (v : Nat) : List (Expr α) → Option (List (Dual α))
  | [] => some []
  | a :: as => do return (← a.fittingDual? p v) :: (← fittingDualArgs? p v as)

end

theorem fittingEvalArgs?_eq {p : List α} {args : List (Expr α)}
    (h : ∀ a ∈ args, a.fittingEval? p = some (a.eval p)) : fittingEvalArgs? p args = some (evalArgs p args) := by
  induction args with
  | nil => rfl
  | cons a as ih =>
    obtain ⟨ha, has⟩ := List.forall_mem_cons.mp h
    rw [fittingEvalArgs?, evalArgs, ha, ih has]
    rfl

theorem fittingDualArgs?_eq {p : List α} {v : Nat} {args : List (Expr α)}
    (h : ∀ a ∈ args, a.fittingDual? p v = some (a.dual p v)) :
    fittingDualArgs? p v args = some (dualArgs p v args) := by
  induction args with
  | nil => rfl
  | cons a as ih =>
    obtain ⟨ha, has⟩ := List.forall_mem_cons.mp h
    rw [fittingDualArgs?, dualArgs, ha, ih has]
    rfl

theorem Built.fittingEval?_eq {a : Expr α} (h : a.Built) (p : List α) : a.fittingEval? p = some (a.eval p) := by
  induction h with
  | const c => rfl
  | var slot => rfl
  | neg _ ih => rw [fittingEval?, eval, ih]; rfl
  | binary _ _ iha ihb => rw [fittingEval?, eval, iha, ihb]; rfl
  | @call f args a hcall _ ih =>
    obtain ⟨hf, rfl⟩ := call_of_call? hcall
    have hlength : (evalArgs p args).length = args.length := by rw [evalArgs_eq, List.length_map]
    rw [← hlength] at hf
    rw [fittingEval?, eval, fittingEvalArgs?_eq ih]
    exact Func.fittingValue?_eq hf
  | invalid => rfl

theorem Built.fittingDual?_eq {a : Expr α} (h : a.Built) (p : List α) (v : Nat) :
    a.fittingDual? p v = some (a.dual p v) := by
  induction h with
  | const c => rfl
  | var slot => rfl
  | neg _ ih => rw [fittingDual?, dual, ih]; rfl
  | binary _ _ iha ihb => rw [fittingDual?, dual, iha, ihb]; rfl
  | @call f args a hcall _ ih =>
    obtain ⟨hf, rfl⟩ := call_of_call? hcall
    have hlength : (dualArgs p v args).length = args.length := by rw [dualArgs_eq, List.length_map]
    have hvalues : f.arity.accepts ((dualArgs p v args).map Dual.value).length = true := by
      rwa [List.length_map, hlength]
    have hparallel : ((dualArgs p v args).map Dual.derivative).length =
        ((dualArgs p v args).map Dual.value).length := by rw [List.length_map, List.length_map]
    rw [fittingDual?, dual, fittingDualArgs?_eq ih, Dual.call]
    simp only [Option.bind_eq_bind, Option.bind_some, Func.fittingValue?_eq hvalues,
      Func.fittingSlope?_eq hvalues hparallel]
    rfl
  | invalid => rfl

/-- The catalog never reads beyond its arguments. A name or an index gives every function. Behind the check of the
arity all reads of a value and of a slope are in range, whatever the slices are, and what does not fit is no number.
In a tree that can be made, such as one that is read from a text, all calls fit, so nothing depends on that check
when it is evaluated. -/
theorem calls_in_range :
    (∀ f : Func, Func.lookup? f.name = some f ∧ Func.ofIndex? f.index = some f) ∧
    (∀ (f : Func) (args slopes : List Float),
      f.valueAt? args = some (f.value args) ∧ f.slopeAt? args slopes = some (f.slope args slopes) ∧
      (f.arity.accepts args.length = false → (f.value args).isNaN = true) ∧
      (f.arity.accepts args.length = false ∨ slopes.length ≠ args.length → (f.slope args slopes).isNaN = true)) ∧
    (∀ a : Expr Float, a.Built → ∀ (p : List Float) (v : Nat),
      a.fittingEval? p = some (a.eval p) ∧ a.fittingDual? p v = some (a.dual p v)) ∧
    ∀ (vars text : List Char) (a : Expr Float), (tryParse vars text).result = .ok a → a.Built := by
  refine ⟨fun f => ⟨f.lookup?_name, f.ofIndex?_index⟩, ?_,
    fun a h p v => ⟨h.fittingEval?_eq p, h.fittingDual?_eq p v⟩, ?_⟩
  · intro f args slopes
    refine ⟨f.valueAt?_eq args, f.slopeAt?_eq args slopes, ?_, ?_⟩
    · intro h
      rw [Func.value_of_misfit h]
      exact Func.isNaN_nan
    · intro h
      rw [Func.slope_of_misfit ?_]
      · exact Func.isNaN_nan
      · rintro ⟨hf, hlength⟩
        rcases h with h | h
        · rw [hf] at h
          cases h
        · exact h hlength
  · intro vars text a h
    exact (Grammar.wellFormed_of_tryParse h).built

/-- The formula of `mod` reads beyond a slice of one argument, and only the check keeps it from that. -/
theorem calls_in_range_mod :
    (Func.rule .mod).valueAt? [(1 : Float)] = none ∧ Func.valueAt? .mod [(1 : Float)] = some (Func.value .mod [1]) ∧
      Func.mod.arity.accepts [(1 : Float)].length = false ∧ (Func.value .mod [(1 : Float)]).isNaN = true ∧
      (Func.slope .mod [(1 : Float), 2] [3]).isNaN = true ∧
      maxWithSquare.Built ∧ maxWithSquare.fittingEval? [3] = some (maxWithSquare.eval [3]) ∧
      maxWithSquare.fittingDual? [3] 0 = some (maxWithSquare.dual [3] 0) := by
  have hbuilt : maxWithSquare.Built := by
    have hcall : call? .max [var 0, .binary .multiply (var 0) (var 0)] = .ok maxWithSquare := rfl
    refine .call hcall (List.forall_mem_cons.mpr ⟨.var 0, List.forall_mem_singleton.mpr ?_⟩)
    exact .binary (.var 0) (.var 0)
  have hmisfit : Func.mod.arity.accepts [(1 : Float)].length = false := rfl
  obtain ⟨-, hcatalog, htrees, -⟩ := calls_in_range
  obtain ⟨hvalue, -, hnan, -⟩ := hcatalog .mod [1] []
  obtain ⟨-, -, -, hslope⟩ := hcatalog .mod [1, 2] [3]
  exact ⟨rfl, hvalue, hmisfit, hnan hmisfit, hslope (.inr (by decide)), hbuilt, htrees _ hbuilt [3] 0⟩

end Expr
end PlotFormula
