import PlotFormula.Proofs.Grammar.Reading

/-! # The walk in the log

A reading reports a part before the parts inside it, and those from left to right. So the log of a formula
walks the nodes of its tree in preorder, and the text that is reported for a node reads as the tree below it.
-/
namespace PlotFormula
namespace Expr
variable {α : Type}

mutual

def subtrees : Expr α → List (Expr α)
  | const c => [const c]
  | var s => [var s]
  | neg a => neg a :: a.subtrees
  | binary op a b => binary op a b :: (a.subtrees ++ b.subtrees)
  | call f args => call f args :: subtreesArgs args
  | invalid => [invalid]

def subtreesArgs : List (Expr α) → List (Expr α)
  | [] => []
  | a :: as => a.subtrees ++ subtreesArgs as

end

theorem length_subtrees (a : Expr α) : a.subtrees.length = a.nodeCount := by
  induction a with
  | const c => rfl
  | var s => rfl
  | neg a ih => rw [subtrees, nodeCount, List.length_cons, ih, Nat.add_comm]
  | binary op a b iha ihb =>
    rw [subtrees, nodeCount, List.length_cons, List.length_append, iha, ihb]
    omega
  | call f args ih =>
    have hargs : (subtreesArgs args).length = nodeCounts args := by
      induction args with
      | nil => rfl
      | cons a as ihs =>
        obtain ⟨ha, has⟩ := List.forall_mem_cons.mp ih
        rw [subtreesArgs, nodeCounts, List.length_append, ha, ihs has]
    rw [subtrees, nodeCount, List.length_cons, hargs, Nat.add_comm]
  | invalid => rfl

end Expr

namespace Grammar
variable {vars s : List Char} {a : Expr Float}

/-- A node with the text that is reported for it, which reads as the tree below the node. The position is that
of the operator and matters only for an operation. -/
structure Visit (vars : List Char) where
  text : List Char
  node : Expr Float
  position : Nat
  reads : (tryParse vars text).result = .ok node
  symbol : ∀ op a b, node = .binary op a b → text[position]? = some op.symbol

def Visit.events (v : Visit vars) : List Event :=
  .normalized v.text ::
    match v.node with
    | .binary op _ _ => [.splitting v.position op]
    | _ => []

/-- The lines in which a node is reported: its text, and for an operation the place of the operator with the
character that stands there. -/
def Visit.lines (v : Visit vars) : List (String × String) :=
  ("TRACE", "Normalized: " ++ String.ofList v.text) ::
    match v.node, v.text[v.position]? with
    | .binary _ _ _, some c =>
      [("TRACE", "Splitting at " ++ toString v.position ++ " ('" ++ String.singleton c ++ "')")]
    | _, _ => []

theorem Visit.map_line_events (v : Visit vars) : v.events.map Event.line = v.lines := by
  rw [events, lines, List.map_cons, Event.line_normalized]
  cases hnode : v.node with
  | binary op a b => simp only [v.symbol op a b hnode, List.map_cons, List.map_nil, Event.line_splitting]
  | _ => rfl

def Walks (vars : List Char) (log : List Event) (trees : List (Expr Float)) : Prop :=
  ∃ walk : List (Visit vars), log = walk.flatMap Visit.events ∧ walk.map Visit.node = trees

namespace Walks
variable {log log' : List Event} {trees trees' : List (Expr Float)}

theorem nil : Walks vars [] [] := ⟨[], rfl, rfl⟩

theorem cons (v : Visit vars) (h : Walks vars log trees) : Walks vars (v.events ++ log) (v.node :: trees) := by
  obtain ⟨walk, rfl, rfl⟩ := h
  exact ⟨v :: walk, List.flatMap_cons.symm, rfl⟩

theorem append (h : Walks vars log trees) (h' : Walks vars log' trees') :
    Walks vars (log ++ log') (trees ++ trees') := by
  obtain ⟨walk, rfl, rfl⟩ := h
  obtain ⟨walk', rfl, rfl⟩ := h'
  exact ⟨walk ++ walk', List.flatMap_append.symm, List.map_append⟩

end Walks

theorem walks_parseParts {args : List (List Char)} {as : List (Expr Float)}
    (h : List.Forall₂ (Reads vars) args as)
    (hparts : ∀ p ∈ args, ∀ b, Reads vars p b → Walks vars (parsePart vars p).log b.subtrees) :
    Walks vars (parseParts vars args).log (Expr.subtreesArgs as) := by
  induction h with
  | nil =>
    rw [parseParts]
    exact .nil
  | @cons p b args as hb has ih =>
    obtain ⟨hp, hargs⟩ := List.forall_mem_cons.mp hparts
    rw [parseParts, Attempt.log_bind_of_ok _ hb, Attempt.log_bind_of_ok _ (result_parseParts.mpr has),
      Attempt.log_pure, List.append_nil, Expr.subtreesArgs]
    exact (hp b hb).append (ih hargs)

/-- The induction is on the parts. The normal text of a part is the text that stands for its tree, since it reads
as the part does. -/
theorem Reads.walks (hvars : Shielded vars) (hs : compact s = s) (h : Reads vars s a) :
    Walks vars (parsePart vars s).log a.subtrees := by
  induction s using induction_parts vars generalizing a with
  | step s ih =>
    have hparts : ∀ p ∈ (Form.ofText vars (normal vars s)).parts, ∀ b, Reads vars p b →
        Walks vars (parsePart vars p).log b.subtrees :=
      fun p hp b => ih p hp (compact_of_mem_parts hs hp)
    have htext : (tryParse vars (normal vars s)).result = .ok a := (result_tryParse_normal hvars hs).trans h
    have hmeans := reads_iff_means.mp h
    have hfits := Form.fits_ofText vars (normal vars s)
    rw [parsePart_eq, Attempt.log_note_bind]
    generalize Form.ofText vars (normal vars s) = form at hparts hmeans hfits
    cases form with
    | negation t =>
      obtain ⟨x, hx, rfl⟩ := hmeans
      have ht := Form.forall_parts_negation.mp hparts x hx
      rw [Attempt.log_bind_of_ok _ hx, Attempt.log_pure, List.append_nil]
      exact ht.cons ⟨normal vars s, .neg x, 0, htext, by simp⟩
    | operation r =>
      obtain ⟨x, y, hx, hy, rfl⟩ := hmeans
      obtain ⟨hleft, hright⟩ := Form.forall_parts_operation.mp hparts
      -- The search cut the text at a character, which therefore stands at the reported place.
      have hsymbol : (normal vars s)[r.position]? = some r.op.symbol := by
        have hwhole : r.whole = normal vars s := hfits
        rw [← hwhole]
        exact getElem?_length r.left r.right r.op.symbol
      rw [Attempt.log_note_bind, Attempt.log_bind_of_ok _ hx, Attempt.log_bind_of_ok _ hy, Attempt.log_pure,
        List.append_nil]
      refine ((hleft x hx).append (hright y hy)).cons ⟨normal vars s, .binary r.op x y, r.position, htext, ?_⟩
      rintro op a b hop
      obtain ⟨rfl, -, -⟩ := Expr.binary.inj hop
      exact hsymbol
    | call f args =>
      obtain ⟨as, has, -, rfl⟩ := hmeans
      have hargs := walks_parseParts has hparts
      rw [Attempt.log_bind_of_ok _ (result_parseParts.mpr has), Attempt.log_ofExcept, List.append_nil]
      exact hargs.cons ⟨normal vars s, .call f as, 0, htext, by simp⟩
    | slot i =>
      obtain rfl : a = .var i := hmeans
      exact Walks.nil.cons ⟨normal vars s, .var i, 0, htext, by simp⟩
    | number x =>
      obtain rfl : a = .const x := hmeans
      exact Walks.nil.cons ⟨normal vars s, .const x, 0, htext, by simp⟩
    | blank => exact hmeans.elim
    | brokenCall => exact hmeans.elim
    | unknown => exact hmeans.elim

/-- The log of a formula is one message with the text and then the walk of its tree, one node after the other,
and it is printed in the lines of that walk. -/
theorem log_tryParse (hvars : IsPlain vars) {text : List Char} (h : (tryParse vars text).result = .ok a) :
    ∃ walk : List (Visit vars),
      (tryParse vars text).log = .parsing text :: walk.flatMap Visit.events ∧
      (tryParse vars text).log.map Event.line =
        ("DEBUG", "Parsing expression: " ++ String.ofList text) :: walk.flatMap Visit.lines ∧
      walk.map Visit.node = a.subtrees ∧ walk.length = a.nodeCount := by
  have hread : Reads vars (compact text) a := h
  obtain ⟨walk, hwalk, hnodes⟩ := hread.walks hvars.shielded (compact_compact text)
  have hlog : (tryParse vars text).log = .parsing text :: walk.flatMap Visit.events :=
    congrArg (Event.parsing text :: ·) hwalk
  have hlines : (tryParse vars text).log.map Event.line =
      ("DEBUG", "Parsing expression: " ++ String.ofList text) :: walk.flatMap Visit.lines := by
    rw [hlog, List.map_cons, List.map_flatMap, Event.line_parsing]
    simp only [Visit.map_line_events]
  refine ⟨walk, hlog, hlines, hnodes, ?_⟩
  rw [← Expr.length_subtrees, ← hnodes, List.length_map]

theorem log_tryParse_max :
    (tryParse ['x'] "2 - Max(-X)".toList).result =
        .ok (.binary .subtract (.const 2) (.call .max [.neg (.var 0)])) ∧
      (tryParse ['x'] "2 - Max(-X)".toList).log.map Event.line =
        [("DEBUG", "Parsing expression: 2 - Max(-X)"), ("TRACE", "Normalized: 2-max(-x)"),
          ("TRACE", "Splitting at 1 ('-')"), ("TRACE", "Normalized: 2"), ("TRACE", "Normalized: max(-x)"),
          ("TRACE", "Normalized: -x"), ("TRACE", "Normalized: x")] ∧
      ∃ walk : List (Visit ['x']),
        (tryParse ['x'] "2 - Max(-X)".toList).log =
          .parsing "2 - Max(-X)".toList :: walk.flatMap Visit.events ∧
        (tryParse ['x'] "2 - Max(-X)".toList).log.map Event.line =
          ("DEBUG", "Parsing expression: 2 - Max(-X)") :: walk.flatMap Visit.lines ∧
        walk.map Visit.node = [.binary .subtract (.const 2) (.call .max [.neg (.var 0)]), .const 2,
          .call .max [.neg (.var 0)], .neg (.var 0), .var 0] := by
  have hok : (tryParse ['x'] "2 - Max(-X)".toList).result =
      .ok (.binary .subtract (.const 2) (.call .max [.neg (.var 0)])) := by decide +kernel
  have htext : "Parsing expression: " ++ String.ofList "2 - Max(-X)".toList =
      "Parsing expression: 2 - Max(-X)" := by decide
  obtain ⟨walk, hlog, hlines, hnodes, -⟩ := log_tryParse (by decide) hok
  rw [htext] at hlines
  exact ⟨hok, by decide +kernel, walk, hlog, hlines, hnodes⟩

end Grammar
end PlotFormula
