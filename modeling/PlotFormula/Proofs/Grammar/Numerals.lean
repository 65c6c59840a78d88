import Mathlib.Algebra.Order.BigOperators.Group.List
import Mathlib.Algebra.Order.Ring.Nat
import PlotFormula.Proofs.Grammar.Phrases

/-! # Numerals

A numeral is a longest run of digits and points. A constant of a tree is read from at least one numeral, and
no two constants share one, so a text has no fewer numerals than the tree that is read from it has constants.
Products are not written between digits, so writing them out leaves the numerals as they are.
-/
namespace PlotFormula
namespace Expr
variable {α : Type}

mutual

def constants : Expr α → List α
  | const x => [x]
  | var _ | invalid => []
  | neg a => a.constants
  | binary _ a b => a.constants ++ b.constants
  | call _ args => constantsArgs args

def constantsArgs : List (Expr α) → List α
  | [] => []
  | a :: as => a.constants ++ constantsArgs as

end

theorem constantsArgs_eq (args : List (Expr α)) : constantsArgs args = args.flatMap constants := by
  induction args with
  | nil => rfl
  | cons a as ih => simp [constantsArgs, ih]

end Expr

namespace Grammar
variable {vars s : List Char}

def isNumeral (c : Char) : Bool := c.isDigit || c == '.'

theorem isNumeral_iff {c : Char} : isNumeral c = true ↔ c.isDigit = true ∨ c = '.' := by
  simp [isNumeral]

/-- The number of numerals that begin in a text, when a numeral stands directly before it or not. -/
def numeralsFrom (inside : Bool) : List Char → Nat
  | [] => 0
  | c :: s => (if isNumeral c && !inside then 1 else 0) + numeralsFrom (isNumeral c) s

def numerals (s : List Char) : Nat := numeralsFrom false s

@[simp] theorem numerals_nil : numerals [] = 0 := rfl

theorem numeralsFrom_cons {d : Char} (hd : isNumeral d = false) (inside : Bool) (s : List Char) :
    numeralsFrom inside (d :: s) = numerals s := by
  simp [numeralsFrom, hd, numerals]

theorem numerals_cons {d : Char} (hd : isNumeral d = false) (s : List Char) :
    numerals (d :: s) = numerals s :=
  numeralsFrom_cons hd false s

theorem numeralsFrom_append {d : Char} (hd : isNumeral d = false) (inside : Bool) (s t : List Char) :
    numeralsFrom inside (s ++ d :: t) = numeralsFrom inside s + numerals t := by
  induction s generalizing inside with
  | nil => simpa [numeralsFrom] using numeralsFrom_cons hd inside t
  | cons c s ih =>
    rw [List.cons_append, numeralsFrom, numeralsFrom, ih, Nat.add_assoc]

theorem numerals_append {d : Char} (hd : isNumeral d = false) (s t : List Char) :
    numerals (s ++ d :: t) = numerals s + numerals t :=
  numeralsFrom_append hd false s t

theorem numerals_eq_zero (h : ∀ c ∈ s, isNumeral c = false) : numerals s = 0 := by
  induction s with
  | nil => rfl
  | cons c s ih =>
    obtain ⟨hc, hs⟩ := List.forall_mem_cons.mp h
    rw [numerals_cons hc, ih hs]

theorem numerals_parens (s : List Char) : numerals ('(' :: s ++ [')']) = numerals s := by
  rw [List.cons_append, numerals_cons (by decide), numerals_append (by decide), numerals_nil, Nat.add_zero]

theorem isNumeral_symbol (op : Op) : isNumeral op.symbol = false := by
  cases op <;> decide

theorem numerals_call (f : Func) (s : List Char) : numerals (f.name ++ ('(' :: s ++ [')'])) = numerals s := by
  have hname : numerals f.name = 0 := by cases f <;> decide
  rw [List.cons_append, numerals_append (by decide), numerals_append (by decide), hname, numerals_nil,
    Nat.zero_add, Nat.add_zero]

theorem numerals_joinArguments (ps : List (List Char)) :
    numerals (joinArguments ps) = (ps.map numerals).sum := by
  match ps with
  | [] => rfl
  | [p] => simp [joinArguments]
  | p :: q :: ps =>
    rw [joinArguments, numerals_append (by decide), numerals_joinArguments (q :: ps)]
    rfl

theorem numerals_pos {c : Char} (hc : c ∈ s) (h : isNumeral c = true) : 0 < numerals s := by
  induction s with
  | nil => simp at hc
  | cons d s ih =>
    cases hd : isNumeral d with
    | true =>
      rw [numerals, numeralsFrom, hd]
      exact Nat.add_pos_left Nat.one_pos _
    | false =>
      rw [numerals_cons hd]
      rcases List.mem_cons.mp hc with rfl | hc
      · rw [h] at hd
        simp at hd
      · exact ih hc

theorem numerals_of_digits (hne : s ≠ []) (h : ∀ c ∈ s, isNumeral c = true) : numerals s = 1 := by
  have hinside {t : List Char} (ht : ∀ c ∈ t, isNumeral c = true) : numeralsFrom true t = 0 := by
    induction t with
    | nil => rfl
    | cons c t ih =>
      obtain ⟨hc, ht⟩ := List.forall_mem_cons.mp ht
      simp [numeralsFrom, hc, ih ht]
  obtain ⟨c, s, rfl⟩ := List.exists_cons_of_ne_nil hne
  obtain ⟨hc, hs⟩ := List.forall_mem_cons.mp h
  rw [numerals, numeralsFrom, hc, hinside hs]
  rfl

theorem Literal.numerals_pos {x : Float} (h : Literal s x) : 0 < numerals s := by
  cases h with
  | @mk sign m ds e k signed v hsign hm he =>
    obtain ⟨c, hc⟩ := List.exists_mem_of_ne_nil m hm.ne_nil
    refine Grammar.numerals_pos (c := c) ?_ (isNumeral_iff.mpr (hm.mem c hc))
    exact List.mem_append_left _ (List.mem_append_right _ hc)

/-- No two constants are read from one numeral. -/
theorem Derives.length_constants_le {p : Phrase} {a : Expr Float} (h : Derives vars p s a) :
    a.constants.length ≤ numerals s := by
  induction h with
  | @operation t op l r a b ht hl hr ihl ihr =>
    rw [Expr.constants, List.length_append, numerals_append (isNumeral_symbol op)]
    exact Nat.add_le_add ihl ihr
  | negation h ih =>
    rw [Expr.constants, numerals_cons (by decide)]
    exact ih
  | base hp h ih => exact ih
  | group h ih =>
    rw [numerals_parens]
    exact ih
  | name => exact Nat.zero_le _
  | @call f args hf h ih =>
    rw [Expr.constants, Expr.constantsArgs_eq, List.length_flatMap, List.map_map, numerals_call,
      numerals_joinArguments, List.map_map]
    exact List.sum_le_sum ih
  | slot => exact Nat.zero_le _
  | literal h => exact h.numerals_pos

/-- The induction is on the text. Where a star is written, one of its neighbours is no part of a numeral. -/
theorem numeralsFrom_writeWith (hvars : IsPlain vars) (inside hidden : Bool) (s : List Char) :
    numeralsFrom inside (writeWith vars hidden s) = numeralsFrom inside s := by
  induction s generalizing inside hidden with
  | nil => rfl
  | cons c s ih =>
    cases s with
    | nil => rfl
    | cons d s =>
      rw [writeWith_cons_cons]
      split
      next hproduct =>
        have hcd : impliesProduct vars c d = true := hvars.shielded.impliesProduct_of_veil hproduct
        have hright : numeralsFrom (isNumeral c) (d :: s) = numerals (d :: s) := by
          cases hc : isNumeral c with
          | false => rfl
          | true =>
            have hd : isNumeral d = false := by
              by_contra hd
              have hd : isNumeral d = true := by simpa using hd
              rw [hvars.impliesProduct_of_digits (isNumeral_iff.mp hc) (isNumeral_iff.mp hd)] at hcd
              simp at hcd
            rw [numeralsFrom_cons hd, numerals_cons hd]
        rw [numeralsFrom, numeralsFrom_cons (by decide), numerals, ih, ← numerals, ← hright]
        rfl
      next =>
        rw [numeralsFrom, ih]
        rfl

theorem numerals_writeProducts (hvars : IsPlain vars) (s : List Char) :
    numerals (writeProducts vars s) = numerals s := by
  rw [writeProducts_eq_writeWith]
  exact numeralsFrom_writeWith hvars false false s

end Grammar
end PlotFormula
