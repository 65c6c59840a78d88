import PlotFormula.Proofs.Grammar.Reading

/-! # Tables with the same entries

A text is brought into its normal text by asking which characters are variables, and not where in the table
they stand. So two tables with the same entries read a text in the same steps, with the same messages and to
the same end, and their trees differ in the numbers of the slots only.
-/
namespace PlotFormula
namespace Expr
variable {α : Type}

mutual

def mapSlots (f : Nat → Nat) : Expr α → Expr α
  | const c => const c
  | var s => var (f s)
  | neg a => neg (a.mapSlots f)
  | binary op a b => binary op (a.mapSlots f) (b.mapSlots f)
  | call g args => call g (mapSlotsArgs f args)
  | invalid => invalid

def mapSlotsArgs (f : Nat → Nat) : List (Expr α) → List (Expr α)
  | [] => []
  | a :: as => a.mapSlots f :: mapSlotsArgs f as

end

theorem mapSlotsArgs_eq (f : Nat → Nat) (args : List (Expr α)) :
    mapSlotsArgs f args = args.map (mapSlots f) := by
  induction args with
  | nil => rfl
  | cons a as ih => rw [mapSlotsArgs, ih, List.map_cons]

theorem call?_map_mapSlots (f : Nat → Nat) (g : Func) (args : List (Expr α)) :
    call? g (args.map (mapSlots f)) = (call? g args).map (mapSlots f) := by
  rw [call?, call?, List.length_map]
  split
  · rw [Except.map, mapSlots, mapSlotsArgs_eq]
  · rfl

end Expr

namespace Grammar
variable {vars vars' : List Char}

/-- The place in the second table of the entry that is at the slot in the first. -/
def moveSlot (vars vars' : List Char) (slot : Nat) : Nat := (vars[slot]?.bind vars'.idxOf?).getD slot

theorem moveSlot_eq {c : Char} {i j : Nat} (hi : vars[i]? = some c) (hj : vars'.idxOf? c = some j) :
    moveSlot vars vars' i = j := by
  rw [moveSlot, hi, Option.bind_some, hj, Option.getD_some]

def Form.mapSlots (f : Nat → Nat) : Form → Form
  | slot i => slot (f i)
  | form => form

theorem normal_of_mem_iff (h : ∀ c, c ∈ vars ↔ c ∈ vars') (s : List Char) : normal vars s = normal vars' s := by
  refine writeProducts_congr fun c _ => ?_
  simp [isVariable, h c]

namespace Form

theorem slotOfText?_moveSlot (h : ∀ c, c ∈ vars ↔ c ∈ vars') (s : List Char) :
    slotOfText? vars' s = (slotOfText? vars s).map (moveSlot vars vars') := by
  unfold slotOfText?
  split
  next c =>
    by_cases hc : c ∈ vars
    · obtain ⟨i, hi⟩ := Option.isSome_iff_exists.mp (List.isSome_idxOf?.mpr hc)
      obtain ⟨j, hj⟩ := Option.isSome_iff_exists.mp (List.isSome_idxOf?.mpr ((h c).mp hc))
      obtain ⟨hlt, hget, -⟩ := List.idxOf?_eq_some_iff.mp hi
      rw [hi, hj, Option.map_some, moveSlot_eq (List.getElem?_eq_some_iff.mpr ⟨hlt, hget⟩) hj]
    · have hc' : c ∉ vars' := fun hmem => hc ((h c).mpr hmem)
      rw [List.idxOf?_eq_none_iff.mpr hc, List.idxOf?_eq_none_iff.mpr hc', Option.map_none]
  next => rfl

theorem mapSlots_ofCall (f : Nat → Nat) (g : Func) (t : List Char) : (ofCall g t).mapSlots f = ofCall g t := by
  refine ofCall_cases g t ?call ?brokenCall
  case call => exact fun args _ => rfl
  case brokenCall => rfl

theorem ofOperand_moveSlot (h : ∀ c, c ∈ vars ↔ c ∈ vars') (s : List Char) :
    ofOperand vars' s = (ofOperand vars s).mapSlots (moveSlot vars vars') := by
  unfold ofOperand
  dsimp only
  rw [slotOfText?_moveSlot h]
  split
  next => rw [mapSlots_ofCall]
  next =>
    cases slotOfText? vars s with
    | some i => rfl
    | none =>
      dsimp only [Option.map_none]
      split <;> rfl

theorem ofText_moveSlot (h : ∀ c, c ∈ vars ↔ c ∈ vars') (s : List Char) :
    ofText vars' s = (ofText vars s).mapSlots (moveSlot vars vars') := by
  unfold ofText
  split
  · rfl
  split
  · rfl
  unfold ofTerm
  split
  · rfl
  split
  · rfl
  split
  · rfl
  exact ofOperand_moveSlot h s

end Form

theorem parseParts_moveSlot {args : List (List Char)}
    (h : ∀ p ∈ args, parsePart vars' p = Expr.mapSlots (moveSlot vars vars') <$> parsePart vars p) :
    parseParts vars' args = List.map (Expr.mapSlots (moveSlot vars vars')) <$> parseParts vars args := by
  induction args with
  | nil =>
    rw [parseParts, parseParts, map_pure]
    rfl
  | cons p args ih =>
    obtain ⟨hp, hargs⟩ := List.forall_mem_cons.mp h
    rw [parseParts, parseParts, hp, ih hargs]
    simp only [map_bind, bind_map_left, map_pure, List.map_cons]

/-- The induction is on the parts, which are the same texts over both tables. -/
theorem parsePart_moveSlot (h : ∀ c, c ∈ vars ↔ c ∈ vars') (s : List Char) :
    parsePart vars' s = Expr.mapSlots (moveSlot vars vars') <$> parsePart vars s := by
  induction s using induction_parts vars with
  | step s ih =>
    rw [parsePart_eq vars', parsePart_eq vars, ← normal_of_mem_iff h s, Form.ofText_moveSlot h, map_bind]
    refine bind_congr fun _ => ?_
    generalize Form.ofText vars (normal vars s) = form at ih
    cases form with
    | negation t =>
      have ht := Form.forall_parts_negation.mp ih
      simp only [Form.mapSlots, ht, map_bind, bind_map_left, map_pure, Expr.mapSlots]
    | operation r =>
      obtain ⟨hleft, hright⟩ := Form.forall_parts_operation.mp ih
      simp only [Form.mapSlots, hleft, hright, map_bind, bind_map_left, map_pure, Expr.mapSlots]
    | call f args =>
      have hargs : parseParts vars' args = List.map (Expr.mapSlots (moveSlot vars vars')) <$> parseParts vars args :=
        parseParts_moveSlot ih
      simp only [Form.mapSlots, hargs, map_bind, bind_map_left, Expr.call?_map_mapSlots, Attempt.map_ofExcept]
    | slot i => rfl
    | number x => rfl
    | blank => rfl
    | brokenCall => rfl
    | unknown => rfl

theorem tryParse_moveSlot (h : ∀ c, c ∈ vars ↔ c ∈ vars') (text : List Char) :
    tryParse vars' text = Expr.mapSlots (moveSlot vars vars') <$> tryParse vars text := by
  rw [tryParse, tryParse, parsePart_moveSlot h, map_bind]

/-- Two tables with the same entries refuse the same texts with the same errors, and the tree of any other text
over the one is that over the other with each variable moved to where the other table has it first. The messages
are the same. For tables with a star see the note at `isVariable`. -/
theorem tryParse_of_mem_iff (h : ∀ c, c ∈ vars ↔ c ∈ vars') (text : List Char) :
    (∀ e, (tryParse vars text).result = .error e ↔ (tryParse vars' text).result = .error e) ∧
    (∀ a, (tryParse vars text).result = .ok a →
      (tryParse vars' text).result = .ok (a.mapSlots (moveSlot vars vars'))) ∧
    (tryParse vars text).log = (tryParse vars' text).log := by
  rw [tryParse_moveSlot h text, Attempt.result_map, Attempt.log_map]
  refine ⟨fun e => ?_, fun a ha => by rw [ha, Except.map], rfl⟩
  cases (tryParse vars text).result <;> simp [Except.map]

theorem tryParse_of_mem_iff_twice :
    (∀ c, c ∈ ['y', 'x', 'y'] ↔ c ∈ ['x', 'y']) ∧
      (tryParse ['y', 'x', 'y'] "2y - Sin(x)".toList).result =
        .ok (.binary .subtract (.binary .multiply (.const 2) (.var 0)) (.call .sin [.var 1])) ∧
      (tryParse ['x', 'y'] "2y - Sin(x)".toList).result =
        .ok (.binary .subtract (.binary .multiply (.const 2) (.var 1)) (.call .sin [.var 0])) ∧
      (tryParse ['y', 'x', 'y'] "2y - z".toList).result = .error (.unrecognizedToken ['z']) ∧
      (tryParse ['x', 'y'] "2y - z".toList).result = .error (.unrecognizedToken ['z']) := by
  have hentries : ∀ c, c ∈ ['y', 'x', 'y'] ↔ c ∈ ['x', 'y'] := by
    intro c
    simp only [List.mem_cons, List.not_mem_nil, or_false]
    tauto
  have hok : (tryParse ['y', 'x', 'y'] "2y - Sin(x)".toList).result =
      .ok (.binary .subtract (.binary .multiply (.const 2) (.var 0)) (.call .sin [.var 1])) := by
    decide +kernel
  have herror : (tryParse ['y', 'x', 'y'] "2y - z".toList).result = .error (.unrecognizedToken ['z']) := by
    decide +kernel
  exact ⟨hentries, hok, (tryParse_of_mem_iff hentries _).2.1 _ hok, herror,
    ((tryParse_of_mem_iff hentries _).1 _).mp herror⟩

end Grammar
end PlotFormula
