import PlotFormula.Proofs.Grammar.Reading

/-! # The size of a reading

Every level of a reading reports its normal text. The parts of a text weigh less than the text together, so
the weight bounds the levels of a reading and the nodes of the tree that it comes to.
-/
namespace PlotFormula

def Event.isNormalized : Event → Bool
  | .normalized _ => true
  | _ => false

namespace Attempt
variable {ε β γ : Type}

/-- How many levels are entered, by the messages. -/
def levels (a : Attempt ε β) : Nat := a.log.countP Event.isNormalized

theorem levels_note_bind (e : Event) (f : Unit → Attempt ε β) :
    (note e >>= f).levels = (f ()).levels + if e.isNormalized then 1 else 0 := by
  rw [levels, note_bind, List.countP_cons, levels]

theorem levels_bind_le (a : Attempt ε β) {f : β → Attempt ε γ} {n : Nat}
    (h : ∀ b, (f b).levels ≤ n) : (a >>= f).levels ≤ a.levels + n := by
  cases ha : a.result with
  | ok b =>
    rw [bind_of_ok f ha]
    show (a.log ++ (f b).log).countP Event.isNormalized ≤ a.log.countP Event.isNormalized + n
    rw [List.countP_append]
    exact Nat.add_le_add_left (h b) _
  | error e =>
    rw [bind_of_error f ha]
    exact Nat.le_add_right _ _

theorem levels_ofExcept (r : Except ε β) : (ofExcept r).levels = 0 := rfl

theorem levels_pure (b : β) : (pure b : Attempt ε β).levels = 0 := rfl

end Attempt

namespace Grammar
variable {vars : List Char}

theorem weight_pos {s : List Char} (h : s ≠ []) : 0 < weight s := by
  cases s with
  | nil => exact absurd rfl h
  | cons c s => exact Nat.lt_of_le_of_lt (Nat.zero_le _) (weight_lt_cons c s)

theorem weight_lt_two_mul_length {s : List Char} (h : s ≠ []) : weight s < 2 * s.length := by
  induction s with
  | nil => exact absurd rfl h
  | cons c s ih =>
    have hle := weight_cons_le c s
    rw [List.length_cons]
    by_cases hs : s = []
    · subst hs
      rw [weight_singleton]
      omega
    · have := ih hs
      omega

theorem levels_parseParts_le {args : List (List Char)}
    (h : ∀ s ∈ args, (parsePart vars s).levels ≤ 2 * weight s + 1) :
    (parseParts vars args).levels ≤ 2 * weights args := by
  induction args with
  | nil =>
    rw [parseParts, Attempt.levels_pure]
    exact Nat.zero_le _
  | cons s args ih =>
    obtain ⟨hs, hargs⟩ := List.forall_mem_cons.mp h
    have ih := ih hargs
    have hrest : ∀ a, ((do let as ← parseParts vars args; return a :: as) :
        Attempt ParseError (List (Expr Float))).levels ≤ (parseParts vars args).levels + 0 :=
      fun a => Attempt.levels_bind_le _ fun as => (Attempt.levels_pure (a :: as)).le
    have := Attempt.levels_bind_le (parsePart vars s) hrest
    rw [parseParts, weights_cons]
    omega

theorem levels_parsePart_le (vars s : List Char) : (parsePart vars s).levels ≤ 2 * weight s + 1 := by
  induction s using induction_parts vars with
  | step s hparts =>
    have hform := Form.weight_ofText vars (normal vars s)
    have hnormal := weight_normal vars s
    rw [parsePart_eq, Attempt.levels_note_bind]
    simp only [Event.isNormalized, if_true]
    generalize Form.ofText vars (normal vars s) = form at *
    cases form with
    | negation t =>
      have hinner := Form.forall_parts_negation.mp hparts
      have hbind := Attempt.levels_bind_le (parsePart vars t) fun a => (Attempt.levels_pure (Expr.neg a)).le
      simp only [Form.weight] at hform
      dsimp only
      omega
    | operation r =>
      obtain ⟨hleft, hright⟩ := Form.forall_parts_operation.mp hparts
      have hboth := Attempt.levels_bind_le (parsePart vars r.left) fun a =>
        Attempt.levels_bind_le (parsePart vars r.right) fun b =>
          (Attempt.levels_pure (Expr.binary r.op a b)).le
      simp only [Form.weight] at hform
      dsimp only
      rw [Attempt.levels_note_bind]
      simp only [Event.isNormalized, Bool.false_eq_true, if_false]
      omega
    | call f args =>
      have hargs := levels_parseParts_le hparts
      have hbind := Attempt.levels_bind_le (parseParts vars args) fun as =>
        (Attempt.levels_ofExcept (Expr.call? f as)).le
      simp only [Form.weight] at hform
      simp only [Form.parts] at hargs
      dsimp only
      omega
    | _ => exact Nat.succ_le_succ (Nat.zero_le _)

theorem nodeCounts_le_weights {args : List (List Char)} {as : List (Expr Float)}
    (h : List.Forall₂ (fun s a => a.nodeCount ≤ weight s) args as) : Expr.nodeCounts as ≤ weights args := by
  induction h with
  | nil => exact Nat.le_refl _
  | cons hnode _ ih =>
    rw [Expr.nodeCounts, weights_cons]
    omega

/-- A tree has no more nodes than its text weighs. -/
theorem nodeCount_le_weight {s : List Char} {a : Expr Float} (h : Reads vars s a) : a.nodeCount ≤ weight s := by
  refine Reads.induction (P := fun s a => a.nodeCount ≤ weight s) ?_ h
  intro s a h
  have hform := Form.weight_ofText vars (normal vars s)
  have hnormal := weight_normal vars s
  have hne : normal vars s ≠ [] := by
    intro hnil
    rw [hnil] at h
    exact h
  have hpos := weight_pos hne
  generalize Form.ofText vars (normal vars s) = form at *
  cases form with
  | negation t =>
    obtain ⟨x, ⟨-, hx⟩, rfl⟩ := h
    simp only [Form.weight] at hform
    rw [Expr.nodeCount]
    omega
  | operation r =>
    obtain ⟨x, y, ⟨-, hx⟩, ⟨-, hy⟩, rfl⟩ := h
    simp only [Form.weight] at hform
    rw [Expr.nodeCount]
    omega
  | call f args =>
    obtain ⟨as, has, -, rfl⟩ := h
    have hcount := nodeCounts_le_weights (has.imp fun _ _ => And.right)
    simp only [Form.weight] at hform
    rw [Expr.nodeCount]
    omega
  | slot i =>
    obtain rfl : a = .var i := h
    rw [Expr.nodeCount]
    omega
  | number x =>
    obtain rfl : a = .const x := h
    rw [Expr.nodeCount]
    omega
  | _ => exact h.elim

theorem levels_tryParse_le (vars text : List Char) :
    (tryParse vars text).levels ≤ 4 * (compact text).length + 1 := by
  have hlevels := levels_parsePart_le vars (compact text)
  have hnote : (tryParse vars text).levels = (parsePart vars (compact text)).levels + 0 :=
    Attempt.levels_note_bind (.parsing text) _
  by_cases hs : compact text = []
  · rw [hs, weight_nil] at hlevels
    rw [hnote, hs]
    omega
  · have := weight_lt_two_mul_length hs
    omega

theorem nodeCount_lt_of_tryParse {vars text : List Char} {a : Expr Float}
    (h : (tryParse vars text).result = .ok a) : a.nodeCount < 2 * (compact text).length := by
  have hreads : Reads vars (compact text) a := h
  have hnodes := nodeCount_le_weight hreads
  have hpos : 0 < a.nodeCount := by
    cases a <;> simp only [Expr.nodeCount] <;> omega
  have hne : compact text ≠ [] := by
    intro hnil
    rw [hnil, weight_nil] at hnodes
    omega
  exact Nat.lt_of_le_of_lt hnodes (weight_lt_two_mul_length hne)

end Grammar
end PlotFormula
