import PlotFormula.Catalog.Rule
import PlotFormula.Proofs.Double.Order

/-! # Extrema and their slopes

The value of `max` is reduced from the arguments two at a time, and its slope is found by a scan that goes
over to a later argument only where it beats the best so far. Both loops keep the same rank, so the slope is
that of the first argument which equals the value. Of `min` the same holds in the reversed order.
-/
namespace PlotFormula
open Scalar (isNaN)

/-- Of two parallel lists, the slope stands beside the first argument with the property. -/
inductive FirstAt {α : Type} (p : α → Prop) : List α → List α → α → Prop
  | here {x d : α} {xs ds : List α} (hx : p x) : FirstAt p (x :: xs) (d :: ds) d
  | there {x d e : α} {xs ds : List α} (hx : ¬ p x) (h : FirstAt p xs ds e) : FirstAt p (x :: xs) (d :: ds) e

theorem FirstAt.exists_index {α : Type} {p : α → Prop} {args slopes : List α} {d : α}
    (h : FirstAt p args slopes d) :
    ∃ (k : Nat) (a : α), args[k]? = some a ∧ p a ∧ (∀ j < k, ∀ b, args[j]? = some b → ¬ p b) ∧
      slopes[k]? = some d := by
  induction h with
  | @here x d xs ds hx => exact ⟨0, x, rfl, hx, by simp, rfl⟩
  | @there x d e xs ds hx _ ih =>
    obtain ⟨k, a, ha, hp, hbefore, hd⟩ := ih
    refine ⟨k + 1, a, by simpa using ha, hp, ?_, by simpa using hd⟩
    intro j hj b hb
    cases j with
    | zero =>
      obtain rfl : x = b := by simpa using hb
      exact hx
    | succ j => exact hbefore j (by omega) b (by simpa using hb)

namespace Rule
variable {α β : Type} [Scalar α] [LinearOrder β]

structure Ranks (rank : α → β) (pick : α → α → α) (beats : α → α → Bool) : Prop where
  isNaN_pick {x y : α} : isNaN x = false → isNaN y = false → isNaN (pick x y) = false
  rank_pick {x y : α} : isNaN x = false → isNaN y = false → rank (pick x y) = max (rank x) (rank y)
  beats_iff {x y : α} : isNaN x = false → isNaN y = false → (beats y x = true ↔ rank x < rank y)

theorem ranks_of_beats {rank : α → β} {beats : α → α → Bool}
    (h : ∀ {x y : α}, isNaN x = false → isNaN y = false → (beats y x = true ↔ rank x < rank y)) :
    Ranks rank (fun x y => if isNaN x || beats y x then y else x) beats where
  isNaN_pick {x y} hx hy := by
    split
    · exact hy
    · exact hx
  rank_pick {x y} hx hy := by
    rw [hx, Bool.false_or]
    split
    next hbeats => exact (max_eq_right ((h hx hy).mp hbeats).le).symm
    next hbeats => exact (max_eq_left (not_lt.mp fun hlt => hbeats ((h hx hy).mpr hlt))).symm
  beats_iff := h

namespace Ranks
variable {rank : α → β} {pick : α → α → α} {beats : α → α → Bool} (h : Ranks rank pick beats)
include h

theorem le_foldl {x : α} {xs : List α} (hx : isNaN x = false) (hxs : ∀ y ∈ xs, isNaN y = false) :
    isNaN (xs.foldl pick x) = false ∧ ∀ y ∈ x :: xs, rank y ≤ rank (xs.foldl pick x) := by
  induction xs generalizing x with
  | nil => exact ⟨hx, by simp⟩
  | cons v xs ih =>
    obtain ⟨hv, hxs⟩ := List.forall_mem_cons.mp hxs
    obtain ⟨hnumber, hle⟩ := ih (h.isNaN_pick hx hv) hxs
    obtain ⟨hpick, hle⟩ := List.forall_mem_cons.mp hle
    rw [h.rank_pick hx hv, max_le_iff] at hpick
    exact ⟨hnumber, List.forall_mem_cons.mpr ⟨hpick.1, List.forall_mem_cons.mpr ⟨hpick.2, hle⟩⟩⟩

/-- The induction is on the arguments that are still to come. So far the scan is at an argument `x` of the
same rank as what the reduction has come to, though of two equal arguments these may be different ones. -/
theorem firstAt_winnerSlope {x top d : α} {xs ds : List α} (hx : isNaN x = false) (htop : isNaN top = false)
    (hxs : ∀ y ∈ xs, isNaN y = false) (hrank : rank top = rank x) (hlength : ds.length = xs.length) :
    FirstAt (fun a => rank a = rank (xs.foldl pick top)) (x :: xs) (d :: ds) (winnerSlope beats x xs d ds) := by
  induction xs generalizing x top d ds with
  | nil =>
    obtain rfl := List.length_eq_zero_iff.mp hlength
    exact .here hrank.symm
  | cons v xs ih =>
    obtain ⟨hv, hxs⟩ := List.forall_mem_cons.mp hxs
    obtain ⟨e, ds, rfl⟩ := List.exists_cons_of_length_eq_add_one hlength
    have hpick := h.isNaN_pick htop hv
    have hmax := h.rank_pick htop hv
    have hle := (h.le_foldl hpick hxs).2 (pick top v) List.mem_cons_self
    have hds : ds.length = xs.length := by simpa using hlength
    rw [hmax, hrank, max_le_iff] at hle
    rw [hrank] at hmax
    by_cases hbeats : beats v x = true
    · have hlt := (h.beats_iff hx hv).mp hbeats
      rw [winnerSlope_cons, if_pos hbeats]
      refine .there (hlt.trans_le hle.2).ne ?_
      exact ih hv hpick hxs (hmax.trans (max_eq_right hlt.le)) hds
    · have hge := not_lt.mp fun hlt => hbeats ((h.beats_iff hx hv).mpr hlt)
      have ih := ih (d := d) hx hpick hxs (hmax.trans (max_eq_left hge)) hds
      rw [winnerSlope_cons, if_neg hbeats]
      generalize winnerSlope beats x xs d ds = slope at ih ⊢
      cases ih with
      | here heq => exact .here heq
      | there hne hrest =>
        have hlt := lt_of_le_of_ne hle.1 hne
        exact .there hne (.there (hge.trans_lt hlt).ne hrest)

end Ranks
end Rule

namespace Func

/-- The value of an extremum bounds all arguments, and its slope is that of the first argument which equals
the value. Where an argument is a NaN, both are. -/
structure FollowsFirst (f : Func) (bounds : Float → Float → Bool) (args slopes : List Float) : Prop where
  nan : (∃ a ∈ args, a.isNaN = true) → (f.value args).isNaN = true ∧ (f.slope args slopes).isNaN = true
  bounded : (∀ a ∈ args, a.isNaN = false) → ∀ a ∈ args, bounds a (f.value args) = true
  first : (∀ a ∈ args, a.isNaN = false) → ∃ (k : Nat) (a : Float), args[k]? = some a ∧
    (a == f.value args) = true ∧ (∀ j < k, ∀ b, args[j]? = some b → (b == f.value args) = false) ∧
    slopes[k]? = some (f.slope args slopes)

theorem value_of_extremum {f : Func} {pick : Float → Float → Float} {beats : Float → Float → Bool}
    (hf : f.rule = Rule.extremum pick beats) (x : Float) (xs : List Float) :
    f.value (x :: xs) = if (x :: xs).any Float.isNaN then Scalar.nan else xs.foldl pick x := by
  rw [value, hf]
  rfl

theorem slope_of_extremum {f : Func} {pick : Float → Float → Float} {beats : Float → Float → Bool}
    (hf : f.rule = Rule.extremum pick beats) (x d : Float) {xs ds : List Float} (hlength : ds.length = xs.length) :
    f.slope (x :: xs) (d :: ds) =
      if (x :: xs).any Float.isNaN then Scalar.nan else Rule.winnerSlope beats x xs d ds := by
  rw [slope, hf]
  show (if ds.length = xs.length then _ else none).getD _ = _
  rw [if_pos hlength]
  rfl

theorem isNaN_nan : (Scalar.nan : Float).isNaN = true := by decide

theorem followsFirst_of_ranks {β : Type} [LinearOrder β] {f : Func} {rank : Float → β}
    {pick : Float → Float → Float} {beats bounds : Float → Float → Bool} (hf : f.rule = Rule.extremum pick beats)
    (h : Rule.Ranks rank pick beats)
    (hbounds : ∀ {x y : Float}, x.isNaN = false → y.isNaN = false → (bounds x y = true ↔ rank x ≤ rank y))
    (hbeq : ∀ {x y : Float}, x.isNaN = false → y.isNaN = false → ((x == y) = true ↔ rank x = rank y))
    {args slopes : List Float} (hargs : args ≠ []) (hlength : slopes.length = args.length) :
    f.FollowsFirst bounds args slopes := by
  obtain ⟨x, xs, rfl⟩ := List.exists_cons_of_ne_nil hargs
  obtain ⟨d, ds, rfl⟩ := List.exists_cons_of_length_eq_add_one hlength
  have hds : ds.length = xs.length := by simpa using hlength
  have hvalue := value_of_extremum hf x xs
  have hslope := slope_of_extremum hf x d hds
  have hnumbers (hall : ∀ a ∈ x :: xs, a.isNaN = false) : (x :: xs).any Float.isNaN = false := by
    simpa using hall
  constructor
  case nan =>
    intro hnan
    rw [hvalue, hslope, if_pos (List.any_eq_true.mpr hnan), if_pos (List.any_eq_true.mpr hnan)]
    exact ⟨isNaN_nan, isNaN_nan⟩
  case bounded =>
    intro hall a ha
    obtain ⟨hx, hxs⟩ := List.forall_mem_cons.mp hall
    obtain ⟨hnumber, hle⟩ := h.le_foldl hx hxs
    rw [hvalue, hnumbers hall]
    exact (hbounds (hall a ha) hnumber).mpr (hle a ha)
  case first =>
    intro hall
    obtain ⟨hx, hxs⟩ := List.forall_mem_cons.mp hall
    obtain ⟨hnumber, -⟩ := h.le_foldl hx hxs
    obtain ⟨k, a, ha, heq, hbefore, hd⟩ := (h.firstAt_winnerSlope (d := d) hx hx hxs rfl hds).exists_index
    rw [hvalue, hslope, hnumbers hall]
    refine ⟨k, a, ha, (hbeq (hall a (List.mem_of_getElem? ha)) hnumber).mpr heq, ?_, hd⟩
    intro j hj b hb
    have hb' := hall b (List.mem_of_getElem? hb)
    exact Bool.eq_false_iff.mpr fun hequal => hbefore j hj b hb ((hbeq hb' hnumber).mp hequal)

/-- The value and the slope of `max`, and of `min`, belong to one argument, the first of the greatest and the
first of the least ones. -/
theorem extremum_follows_first {args slopes : List Float} (hargs : args ≠ [])
    (hlength : slopes.length = args.length) :
    FollowsFirst max Float.le args slopes ∧ FollowsFirst min (fun a v => v.le a) args slopes := by
  constructor
  · exact followsFirst_of_ranks rfl (Rule.ranks_of_beats Double.lt_iff) Double.le_iff Double.beq_iff hargs hlength
  · have hranks : Rule.Ranks (fun x => OrderDual.toDual (Double.value x)) Double.lesser fun v best => v.lt best :=
      Rule.ranks_of_beats fun hx hy => Double.lt_iff hy hx
    refine followsFirst_of_ranks rfl hranks (fun hx hy => Double.le_iff hy hx) ?_ hargs hlength
    exact fun hx hy => (Double.beq_iff hx hy).trans OrderDual.toDual_inj.symm

theorem extremum_follows_first_tie :
    ([-1, 0.0, -0.0] : List Float) ≠ [] ∧ ([5, 6, 7] : List Float).length = [-1, 0.0, -0.0].length ∧
      FollowsFirst max Float.le [-1, 0.0, -0.0] [5, 6, 7] ∧
      FollowsFirst min (fun a v => v.le a) [-1, 0.0, -0.0] [5, 6, 7] ∧
      slope max [-1, 0.0, -0.0] [5, 6, 7] = (6 : Float) := by
  have hboth : FollowsFirst max Float.le [-1, 0.0, -0.0] [5, 6, 7] ∧
      FollowsFirst min (fun a v => v.le a) [-1, 0.0, -0.0] [5, 6, 7] :=
    extremum_follows_first (by simp) rfl
  exact ⟨by simp, rfl, hboth.1, hboth.2, by decide⟩

end Func
end PlotFormula
