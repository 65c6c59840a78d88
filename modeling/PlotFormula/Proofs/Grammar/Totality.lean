import PlotFormula.Proofs.Grammar.Indexed
import PlotFormula.Proofs.Grammar.Size

/-! # Reading always ends

A reading by index brings every part into lower case again, goes down a bounded number of levels and gives
nothing at all if a level, a loop or an index is out of its bounds. It always gives what reading gives.
-/
namespace PlotFormula

namespace Attempt
variable {ε β γ : Type}

def andThen? (a : Option (Attempt ε β)) (f : β → Option (Attempt ε γ)) : Option (Attempt ε γ) := do
  let a ← a
  match a.result with
  | .ok b =>
    let c ← f b
    some ⟨a.log ++ c.log, c.result⟩
  | .error e => some ⟨a.log, .error e⟩

theorem andThen?_eq {a : Option (Attempt ε β)} {f : β → Option (Attempt ε γ)} {x : Attempt ε β}
    {g : β → Attempt ε γ} (ha : a = some x) (hf : ∀ b, f b = some (g b)) :
    andThen? a f = some (x >>= g) := by
  subst ha
  show (match x.result with
    | .ok b => (f b).bind fun c => some (⟨x.log ++ c.log, c.result⟩ : Attempt ε γ)
    | .error e => some ⟨x.log, .error e⟩) = _
  cases hx : x.result with
  | ok b =>
    simp only [hf, Option.bind_some, bind_of_ok g hx]
    rfl
  | error e =>
    simp only [bind_of_error g hx]
    rfl

end Attempt

namespace Grammar

def normalAt? (vars text : List Char) : Option (List Char) := do
  let s ← stripAt? ((compact text).length + 1) (compact text)
  let masked ← maskAt? s.length 0 s
  insertAt? vars (2 * s.length + 1) 0 s masked

section
variable (read : List Char → Option (Attempt ParseError (Expr Float)))

def readAllAt? : List (List Char) → Option (Attempt ParseError (List (Expr Float)))
  | [] => some (pure [])
  | s :: rest =>
    Attempt.andThen? (read s) fun a =>
      Attempt.andThen? (readAllAt? rest) fun as => some (pure (a :: as))

def readFormAt? (s : List Char) : Form → Option (Attempt ParseError (Expr Float))
  | .blank => some (Attempt.fail .empty)
  | .negation inner => Attempt.andThen? (read inner) fun a => some (pure (.neg a))
  | .operation r =>
    Attempt.andThen? (some (Attempt.note (.splitting r.position r.op))) fun _ =>
      Attempt.andThen? (read r.left) fun a =>
        Attempt.andThen? (read r.right) fun b => some (pure (.binary r.op a b))
  | .call f args => Attempt.andThen? (readAllAt? read args) fun as => some (Attempt.ofExcept (Expr.call? f as))
  | .brokenCall => some (Attempt.fail (.malformedCall s))
  | .slot i => some (pure (.var i))
  | .number x => some (pure (.const x))
  | .unknown => some (Attempt.fail (.unrecognizedToken s))

end

/-- Reads a text, or gives nothing below `depth` levels. -/
def readAt? (vars : List Char) : Nat → List Char → Option (Attempt ParseError (Expr Float))
  | 0, _ => none
  | depth + 1, text => do
    let s ← normalAt? vars text
    let form ← formAt? vars s
    Attempt.andThen? (some (Attempt.note (.normalized s))) fun _ =>
      readFormAt? (readAt? vars depth) s form

def tryParseAt? (vars : List Char) (depth : Nat) (text : List Char) :
    Option (Attempt ParseError (Expr Float)) :=
  Attempt.andThen? (some (Attempt.note (.parsing text))) fun _ => readAt? vars depth text

theorem normalAt?_eq {vars : List Char} (hstar : '*' ∉ vars) (text : List Char) :
    normalAt? vars text = some (normal vars (compact text)) := by
  rw [normalAt?, stripAt?_eq (Nat.lt_succ_self _)]
  simp only [Option.bind_eq_bind, Option.bind_some, maskAt?_eq, insertAt?_eq hstar]
  rfl

section
variable {vars : List Char} {read : List Char → Option (Attempt ParseError (Expr Float))}

theorem readAllAt?_eq {args : List (List Char)} (h : ∀ s ∈ args, read s = some (parsePart vars s)) :
    readAllAt? read args = some (parseParts vars args) := by
  induction args with
  | nil => rw [readAllAt?, parseParts]
  | cons s args ih =>
    obtain ⟨hs, hargs⟩ := List.forall_mem_cons.mp h
    rw [readAllAt?, parseParts]
    exact Attempt.andThen?_eq hs fun a => Attempt.andThen?_eq (ih hargs) fun as => rfl

theorem readFormAt?_eq (vars s : List Char)
    (h : ∀ p ∈ (Form.ofText vars (normal vars s)).parts, read p = some (parsePart vars p)) :
    Attempt.andThen? (some (Attempt.note (.normalized (normal vars s))))
      (fun _ => readFormAt? read (normal vars s) (Form.ofText vars (normal vars s))) =
        some (parsePart vars s) := by
  rw [parsePart_eq]
  refine Attempt.andThen?_eq rfl fun _ => ?_
  generalize Form.ofText vars (normal vars s) = form at h ⊢
  cases form with
  | negation t => exact Attempt.andThen?_eq (Form.forall_parts_negation.mp h) fun a => rfl
  | operation r =>
    obtain ⟨hleft, hright⟩ := Form.forall_parts_operation.mp h
    exact Attempt.andThen?_eq rfl fun _ =>
      Attempt.andThen?_eq hleft fun a => Attempt.andThen?_eq hright fun b => rfl
  | call f args => exact Attempt.andThen?_eq (readAllAt?_eq h) fun as => rfl
  | _ => rfl

end

/-- The weight of a text bounds the levels below it, so the induction is on the depth that is allowed. -/
theorem readAt?_eq {vars : List Char} (hstar : '*' ∉ vars) {depth : Nat} {text : List Char}
    (h : weight (compact text) < depth) : readAt? vars depth text = some (parsePart vars (compact text)) := by
  induction depth generalizing text with
  | zero => exact absurd h (Nat.not_lt_zero _)
  | succ depth ih =>
    have hparts : ∀ p ∈ (Form.ofText vars (normal vars (compact text))).parts,
        readAt? vars depth p = some (parsePart vars p) := by
      intro p hp
      have hcompact := compact_of_mem_parts (compact_compact text) hp
      have hweight := weight_lt_of_mem_parts_normal hp
      have hread : readAt? vars depth p = some (parsePart vars (compact p)) := by
        apply ih
        rw [hcompact]
        omega
      rwa [hcompact] at hread
    rw [readAt?, normalAt?_eq hstar]
    simp only [Option.bind_eq_bind, Option.bind_some, formAt?_eq]
    exact readFormAt?_eq vars (compact text) hparts

/-- Without a star in the table, reading by index comes to an end within `4 n + 1` levels for a compact text
of `n` characters, and a tree that it comes to has at most `2 n - 1` nodes. -/
theorem tryParseAt?_eq_some {vars : List Char} (hstar : '*' ∉ vars) (text : List Char) :
    (∀ depth, 4 * (compact text).length < depth →
      tryParseAt? vars depth text = some (tryParse vars text)) ∧
    (tryParse vars text).levels ≤ 4 * (compact text).length + 1 ∧
    ∀ a, (tryParse vars text).result = .ok a → a.nodeCount ≤ 2 * (compact text).length - 1 := by
  refine ⟨?_, levels_tryParse_le vars text, ?_⟩
  · intro depth hdepth
    have hweight : weight (compact text) < depth := by
      by_cases hs : compact text = []
      · rw [hs, weight_nil]
        omega
      · have := weight_lt_two_mul_length hs
        omega
    exact Attempt.andThen?_eq rfl fun _ => readAt?_eq hstar hweight
  · intro a ha
    have := nodeCount_lt_of_tryParse ha
    omega

theorem tryParseAt?_eq_some_product :
    '*' ∉ ['x'] ∧ tryParseAt? ['x'] 9 ['2', 'X'] = some (tryParse ['x'] ['2', 'X']) ∧
      (tryParse ['x'] ['2', 'X']).levels ≤ 9 := by
  have hstar : '*' ∉ ['x'] := by decide
  have hlen : (compact ['2', 'X']).length = 2 := by decide +kernel
  obtain ⟨hread, hlevels, -⟩ := tryParseAt?_eq_some hstar ['2', 'X']
  rw [hlen] at hread hlevels
  exact ⟨hstar, hread 9 (by decide), hlevels⟩

end Grammar
end PlotFormula
