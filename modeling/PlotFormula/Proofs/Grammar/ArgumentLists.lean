import PlotFormula.Proofs.Grammar.Indexed

/-! # Cutting and joining

A text is cut into arguments with one level and one start index for all of them. Joining the arguments with
commas gives the text back, and of all lists that give it back the arguments are the only one whose texts may
be told apart.
-/
namespace PlotFormula.Grammar

theorem splitArguments_eq_iff {s : List Char} {ps : List (List Char)} :
    splitArguments s = ps ↔ joinArguments ps = s ∧ AreArguments 0 ps := by
  constructor
  · rintro rfl
    exact ⟨join_splitArgumentsFrom 0 s, areArguments_splitArgumentsFrom 0 s⟩
  · rintro ⟨rfl, h⟩
    exact splitArgumentsFrom_join h

/-- Every text is joined again from what it is cut into, and every list of closed texts, empty ones among them,
is what the joined texts are cut into. The loop over the text comes to the same arguments. -/
theorem splitArguments_joinArguments (s : List Char) :
    argumentsAt? s 0 0 0 s = some (splitArguments s) ∧ joinArguments (splitArguments s) = s ∧
      ∀ ps, ps ≠ [] → (∀ p ∈ ps, Closed p) → splitArguments (joinArguments ps) = ps := by
  have hloop : argumentsAt? s 0 0 0 s = some (splitArguments s) :=
    argumentsAt?_eq (show s = [] ++ [] ++ s from rfl) 0
  refine ⟨hloop, (splitArguments_eq_iff.mp rfl).1, ?_⟩
  intro ps hne hps
  exact splitArguments_eq_iff.mpr ⟨rfl, areArguments_of_closed hne hps⟩

theorem splitArguments_joinArguments_max :
    joinArguments ["max(2,3)".toList, ['1'], []] = "max(2,3),1,".toList ∧
      splitArguments "max(2,3),1,".toList = ["max(2,3)".toList, ['1'], []] := by
  have hpieces : ∀ p ∈ [['2'], ['3']], Closed p :=
    List.forall_mem_cons.mpr ⟨closed_singleton rfl (by decide),
      List.forall_mem_singleton.mpr (closed_singleton rfl (by decide))⟩
  have hargs : Nested "2,3".toList := nested_join hpieces
  have hmax : Closed "max(2,3)".toList := (closed_name .max).append hargs.parens
  have hone : Closed ['1'] := closed_singleton rfl (by decide)
  have hclosed : ∀ p ∈ ["max(2,3)".toList, ['1'], []], Closed p := by
    rintro p (_ | ⟨_, _ | ⟨_, _ | ⟨_, hp⟩⟩⟩)
    · exact hmax
    · exact hone
    · exact closed_nil
    · exact nomatch hp
  have hjoin : joinArguments ["max(2,3)".toList, ['1'], []] = "max(2,3),1,".toList := by decide
  have hsplit := (splitArguments_joinArguments "max(2,3),1,".toList).2.2 _ (List.cons_ne_nil _ _) hclosed
  rw [hjoin] at hsplit
  exact ⟨hjoin, hsplit⟩

end PlotFormula.Grammar
