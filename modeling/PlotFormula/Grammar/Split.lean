import PlotFormula.Grammar.Weight
import PlotFormula.Op

/-! # Splitting at an operator

A normal text is an operation at its rightmost operator, of the tier in question, that stands outside
all parentheses. The text is read from the right, so operators of one tier associate to the left.
-/
namespace PlotFormula.Grammar

structure Split where
  left : List Char
  op : Op
  right : List Char

namespace Split

def position (s : Split) : Nat := s.left.length

def whole (s : Split) : List Char := s.left ++ s.op.symbol :: s.right

end Split

/-- Whether `c` is the sign of an exponent, as in `3e-1`, by the text before it, nearest character
first. -/
def isExponentSign (c : Char) : List Char → Bool
  | 'e' :: d :: _ => (c == '+' || c == '-') && d.isDigit
  | _ => false

def isBinaryAfter (c : Char) : List Char → Bool
  | [] => false
  | d :: before => !isOperator d && !isExponentSign c (d :: before)

/-- Continues a search to the left, at a level of parentheses and with the text on the right of what is
still to be searched. The level is counted without a bound (see `bracket`). -/
def splitFrom (t : Tier) (level : Int) (right : List Char) : List Char → Option Split
  | [] => none
  | c :: before =>
    match if level = 0 ∧ isBinaryAfter c before then t.opOf? c else none with
    | some op => some ⟨before.reverse, op, right⟩
    | none => splitFrom t (level - bracket c) (c :: right) before

def split? (t : Tier) (s : List Char) : Option Split := splitFrom t 0 [] s.reverse

theorem whole_splitFrom {t : Tier} {level : Int} {right before : List Char} {r : Split}
    (h : splitFrom t level right before = some r) : r.whole = before.reverse ++ right := by
  induction before generalizing level right with
  | nil => simp [splitFrom] at h
  | cons c before ih =>
    rw [splitFrom] at h
    split at h
    next op hop =>
      split at hop
      next =>
        obtain rfl := Option.some.inj h
        simp [Split.whole, Op.symbol_of_ofSymbol? (Tier.ofSymbol?_of_opOf? hop)]
      next => simp at hop
    next => simpa using ih h

theorem whole_split? {t : Tier} {s : List Char} {r : Split} (h : split? t s = some r) : r.whole = s := by
  simpa using whole_splitFrom h

theorem Split.weight_add_weight_lt (r : Split) : weight r.left + weight r.right < weight r.whole := by
  have h₁ := weight_append r.left (r.op.symbol :: r.right)
  have h₂ := weight_lt_cons r.op.symbol r.right
  rw [Split.whole]
  omega

end PlotFormula.Grammar
