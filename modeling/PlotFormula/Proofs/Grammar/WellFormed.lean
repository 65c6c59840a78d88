import PlotFormula.Proofs.Double.Magnitude
import PlotFormula.Proofs.Grammar.Reading

/-! # What reading comes to

A tree that is read has no gaps, its slots are places of the table, its calls have as many arguments as
their functions take, and its constants have no sign, because a minus sign always is an operation. A text
that is refused becomes the invalid formula, and no other text does.
-/
namespace PlotFormula
namespace Expr

/-- The trees that may be read over a table. A slot is the first place of its name, which is in lower case and
not the name of Euler's number. -/
inductive WellFormed (vars : List Char) : Expr Float → Prop
  | const {x : Float} (hx : Double.IsMagnitude x) : WellFormed vars (const x)
  | var {slot : Nat} {c : Char} (hc : vars[slot]? = some c) (hfirst : c ∉ vars.take slot) (he : c ≠ 'e')
      (hlower : Text.IsLower c) : WellFormed vars (var slot)
  | neg {a : Expr Float} (h : WellFormed vars a) : WellFormed vars (neg a)
  | binary {op : Op} {a b : Expr Float} (ha : WellFormed vars a) (hb : WellFormed vars b) :
      WellFormed vars (binary op a b)
  | call {f : Func} {args : List (Expr Float)} (hf : f.arity.accepts args.length = true)
      (h : ∀ a ∈ args, WellFormed vars a) : WellFormed vars (call f args)

theorem WellFormed.isInvalid_eq {vars : List Char} {a : Expr Float} (h : a.WellFormed vars) :
    a.isInvalid = false := by
  cases h <;> rfl

theorem WellFormed.exists_entry {vars : List Char} {a : Expr Float} (h : a.WellFormed vars) {slot : Nat}
    (hslot : a.dependsOn slot = true) : ∃ c, vars[slot]? = some c ∧ Text.IsLower c := by
  induction h with
  | const => simp [dependsOn] at hslot
  | @var s c hc _ _ hlower =>
    obtain rfl : s = slot := by simpa [dependsOn] using hslot
    exact ⟨c, hc, hlower⟩
  | neg h ih => exact ih hslot
  | binary ha hb iha ihb =>
    rcases Bool.or_eq_true_iff.mp hslot with hslot | hslot
    · exact iha hslot
    · exact ihb hslot
  | call hf h ih =>
    rw [dependsOn, someDependsOn_eq] at hslot
    obtain ⟨a, ha, hslot⟩ := List.any_eq_true.mp hslot
    exact ih a ha hslot

end Expr

namespace Grammar
variable {vars s : List Char} {a : Expr Float}

namespace Form

def Grounded (vars s : List Char) : Form → Prop
  | slot i => ∃ c, s = [c] ∧ c ≠ 'e' ∧ vars.idxOf? c = some i
  | number x => ∃ d : Decimal, x = d.toDouble
  | _ => True

theorem exists_decimal_of_numberOfText? {x : Float} (h : numberOfText? s = some x) :
    ∃ d : Decimal, x = d.toDouble := by
  unfold numberOfText? at h
  split at h
  all_goals
    obtain ⟨d, -, rfl⟩ := Option.map_eq_some_iff.mp h
    exact ⟨d, rfl⟩

/-- Calls are looked for before variables, so that `e` is no variable. -/
theorem grounded_ofText (vars s : List Char) : (ofText vars s).Grounded vars s := by
  refine ofText_cases vars s ?blank ?operation ?negation ?call ?brokenCall ?slot ?number ?unknown
  case slot =>
    intro i hname hi
    obtain ⟨c, rfl, hc⟩ := slotOfText?_eq_some_iff.mp hi
    refine ⟨c, rfl, ?_, hc⟩
    rintro rfl
    exact absurd hname (by decide)
  case number => exact fun x hx => exists_decimal_of_numberOfText? hx
  all_goals intros; trivial

theorem exists_part {R : List Char → Expr Float → Prop} {args : List (List Char)} {as : List (Expr Float)}
    (h : List.Forall₂ R args as) {b : Expr Float} (hb : b ∈ as) : ∃ t ∈ args, R t b := by
  induction h with
  | nil => simp at hb
  | cons hR _ ih =>
    rcases List.mem_cons.mp hb with rfl | hb
    · exact ⟨_, List.mem_cons_self, hR⟩
    · obtain ⟨t, ht, hR⟩ := ih hb
      exact ⟨t, List.mem_cons_of_mem _ ht, hR⟩

theorem Means.wellFormed {R : List Char → Expr Float → Prop} (h : (ofText vars s).Means R a)
    (hs : ∀ c ∈ s, Text.IsLower c)
    (hparts : ∀ t ∈ (ofText vars s).parts, ∀ b, R t b → b.WellFormed vars) : a.WellFormed vars := by
  have hground := grounded_ofText vars s
  generalize ofText vars s = form at h hparts hground
  cases form with
  | negation t =>
    obtain ⟨x, hx, rfl⟩ := h
    exact .neg (forall_parts_negation.mp hparts x hx)
  | operation r =>
    obtain ⟨x, y, hx, hy, rfl⟩ := h
    obtain ⟨hleft, hright⟩ := forall_parts_operation.mp hparts
    exact .binary (hleft x hx) (hright y hy)
  | call f args =>
    obtain ⟨as, has, hf, rfl⟩ := h
    refine .call hf fun b hb => ?_
    obtain ⟨t, ht, hR⟩ := exists_part has hb
    exact hparts t ht b hR
  | slot i =>
    obtain rfl : a = .var i := h
    obtain ⟨c, rfl, he, hc⟩ := hground
    obtain ⟨hi, hget, hbefore⟩ := List.idxOf?_eq_some_iff.mp hc
    refine .var (List.getElem?_eq_some_iff.mpr ⟨hi, hget⟩) ?_ he (hs c (List.mem_singleton_self c))
    intro hmem
    obtain ⟨j, hj, hjc⟩ := List.mem_take_iff_getElem.mp hmem
    exact hbefore j (by omega) hjc
  | number x =>
    obtain rfl : a = .const x := h
    obtain ⟨d, rfl⟩ := hground
    exact .const (Double.isMagnitude_toDouble d)
  | blank => exact h.elim
  | brokenCall => exact h.elim
  | unknown => exact h.elim

end Form

theorem isLower_normal (h : ∀ c ∈ s, Text.IsLower c) : ∀ c ∈ normal vars s, Text.IsLower c := by
  intro c hc
  rcases mem_normal hc with hc | rfl
  · exact h c hc
  · exact (lower_symbol .multiply).1

theorem Reads.wellFormed (h : Reads vars s a) (hs : ∀ c ∈ s, Text.IsLower c) : a.WellFormed vars := by
  refine Reads.induction (P := fun s a => (∀ c ∈ s, Text.IsLower c) → a.WellFormed vars) ?_ h hs
  intro s a hmeans hs
  have hnormal : ∀ c ∈ normal vars s, Text.IsLower c := isLower_normal hs
  refine hmeans.wellFormed hnormal ?_
  rintro t ht b ⟨-, hb⟩
  exact hb fun c hc => hnormal c ((Form.fits_ofText vars _).mem ht hc)

theorem wellFormed_of_tryParse {text : List Char} (h : (tryParse vars text).result = .ok a) :
    a.WellFormed vars :=
  Reads.wellFormed h fun _ hc => (isLower_of_mem_compact hc).1

theorem result_parse_of_ok {text : List Char} (h : (tryParse vars text).result = .ok a) :
    (parse vars text).result = a := by
  rw [parse, h]

theorem result_parse_of_error {text : List Char} {e : ParseError}
    (h : (tryParse vars text).result = .error e) : (parse vars text).result = .invalid := by
  rw [parse, h]

/-- What is read is well-formed at every node, and the formula of a text is invalid exactly if the text is
refused, so that it never is a part of a tree. For a table with a star see the note at `isVariable`. -/
theorem tryParse_wellFormed (vars text : List Char) :
    (∀ a, (tryParse vars text).result = .ok a → a.WellFormed vars ∧ (parse vars text).result = a) ∧
    (∀ e, (tryParse vars text).result = .error e → (parse vars text).result = .invalid) ∧
    ((parse vars text).result.isInvalid = true ↔ ∃ e, (tryParse vars text).result = .error e) := by
  refine ⟨fun a h => ⟨wellFormed_of_tryParse h, result_parse_of_ok h⟩, fun e h => result_parse_of_error h, ?_⟩
  cases h : (tryParse vars text).result with
  | ok a =>
    rw [result_parse_of_ok h, (wellFormed_of_tryParse h).isInvalid_eq]
    simp
  | error e =>
    rw [result_parse_of_error h]
    exact ⟨fun _ => ⟨e, rfl⟩, fun _ => rfl⟩

theorem tryParse_wellFormed_max :
    (tryParse ['(', 'x'] "Max(2E3, -X)".toList).result = .ok (.call .max [.const 2000, .neg (.var 1)]) ∧
      Expr.WellFormed ['(', 'x'] (.call .max [.const 2000, .neg (.var 1)]) ∧
      (tryParse ['(', 'x'] "sin(x".toList).result = .error (.malformedCall "sin(".toList) ∧
      (parse ['(', 'x'] "sin(x".toList).result = .invalid := by
  have hok : (tryParse ['(', 'x'] "Max(2E3, -X)".toList).result =
      .ok (.call .max [.const 2000, .neg (.var 1)]) := by decide +kernel
  have herror : (tryParse ['(', 'x'] "sin(x".toList).result = .error (.malformedCall "sin(".toList) := by
    decide +kernel
  exact ⟨hok, ((tryParse_wellFormed _ _).1 _ hok).1, herror, (tryParse_wellFormed _ _).2.1 _ herror⟩

end Grammar
end PlotFormula
