import PlotFormula.Double.Decimal
import PlotFormula.Grammar.Split

/-! # The form of a normal text

What a normal text is, seen from outside: its outermost operation or call with the texts of the parts,
or a variable or a constant, or nothing that could be read. Reading a formula is finding its form and
then reading the parts.
-/
namespace PlotFormula.Grammar

inductive Form where
  | blank
  | negation (inner : List Char)
  | operation (parts : Split)
  | call (f : Func) (args : List (List Char))
  | brokenCall
  | slot (i : Nat)
  | number (x : Float)
  | unknown

namespace Form

/-- What a text is that begins with a name of the catalog, by the text after the name. A name that
stands alone is a call without arguments. -/
def ofCall (f : Func) : List Char → Form
  | [] => call f []
  | '(' :: s => if s.getLast? = some ')' then call f (argumentTexts s.dropLast) else brokenCall
  | _ => brokenCall

/-- A constant: digits with at most one point and an optional exponent, which may follow a plus sign.
A minus sign is always an operator. -/
def numberOfText? : List Char → Option Float
  | '+' :: s => (Decimal.ofText? s).map Decimal.toDouble
  | s => (Decimal.ofText? s).map Decimal.toDouble

def slotOfText? (vars : List Char) : List Char → Option Nat
  | [c] => vars.idxOf? c
  | _ => none

def ofOperand (vars s : List Char) : Form :=
  let word := firstWord s
  match Func.lookup? word with
  | some f => ofCall f (s.drop word.length)
  | none =>
    match slotOfText? vars s with
    | some i => slot i
    | none =>
      match numberOfText? s with
      | some x => number x
      | none => unknown

/-- What a text is that is no sum or difference. A leading minus binds looser than a product. -/
def ofTerm (vars : List Char) : List Char → Form
  | '-' :: s => negation s
  | s =>
    match split? .multiplicative s with
    | some parts => operation parts
    | none =>
      match split? .power s with
      | some parts => operation parts
      | none => ofOperand vars s

def ofText (vars s : List Char) : Form :=
  if s = [] then
    blank
  else
    match split? .additive s with
    | some parts => operation parts
    | none => ofTerm vars s

def weight : Form → Nat
  | negation s => Grammar.weight s + 1
  | operation r => Grammar.weight r.left + Grammar.weight r.right + 1
  | call _ args => weights args + 1
  | _ => 0

theorem weight_ofCall {f : Func} {word s : List Char} (h : word ≠ []) :
    (ofCall f s).weight ≤ Grammar.weight (word ++ s) := by
  have hword : 0 < Grammar.weight word := by
    cases word with
    | nil => exact absurd rfl h
    | cons c w => exact Nat.lt_of_le_of_lt (Nat.zero_le _) (weight_lt_cons c w)
  have happend := weight_append word s
  unfold ofCall
  split
  next => simp [weight]; omega
  next s =>
    split
    next hs =>
      obtain ⟨u, rfl⟩ := List.getLast?_eq_some_iff.mp hs
      have h₁ := weight_append u [')']
      have h₂ := weight_lt_cons '(' (u ++ [')'])
      have h₃ := weights_argumentTexts u
      simp only [weight, List.dropLast_concat, weight_singleton] at *
      omega
    next => simp [weight]
  next => simp [weight]

theorem weight_ofText (vars s : List Char) : (ofText vars s).weight ≤ Grammar.weight s := by
  have split {t : Tier} {r : Split} (h : split? t s = some r) :
      (operation r).weight ≤ Grammar.weight s := by
    have := r.weight_add_weight_lt
    rw [whole_split? h] at this
    exact this
  unfold ofText
  split
  · simp [weight]
  split
  next r h => exact split h
  unfold ofTerm
  split
  next => exact weight_lt_cons '-' _
  split
  next r h => exact split h
  split
  next r h => exact split h
  unfold ofOperand
  dsimp only
  split
  next f h =>
    have hne : firstWord s ≠ [] := fun hnil => by
      have hnone : Func.lookup? [] = none := by decide
      rw [hnil, hnone] at h
      simp at h
    have hword : firstWord s ++ s.drop (firstWord s).length = s := by
      conv => lhs; lhs; rw [← firstWord_prefix s]
      exact List.take_append_drop _ s
    have := weight_ofCall (f := f) (s := s.drop (firstWord s).length) hne
    rwa [hword] at this
  all_goals split
  · simp [weight]
  split <;> simp [weight]

end Form
end PlotFormula.Grammar
