import PlotFormula.Scalar

/-! # Operators

The five binary operators, and the three tiers in which they bind: sums loosest, powers tightest.
-/
namespace PlotFormula

inductive Op where
  | add
  | subtract
  | multiply
  | divide
  | power
deriving DecidableEq, Repr

inductive Tier where
  | additive
  | multiplicative
  | power
deriving DecidableEq, Repr

namespace Op

def symbol : Op → Char
  | add => '+'
  | subtract => '-'
  | multiply => '*'
  | divide => '/'
  | power => '^'

def ofSymbol? : Char → Option Op
  | '+' => some add
  | '-' => some subtract
  | '*' => some multiply
  | '/' => some divide
  | '^' => some power
  | _ => none

def tier : Op → Tier
  | add | subtract => .additive
  | multiply | divide => .multiplicative
  | power => .power

def apply {α : Type} [Scalar α] : Op → α → α → α
  | add, x, y => x + y
  | subtract, x, y => x - y
  | multiply, x, y => x * y
  | divide, x, y => x / y
  | power, x, y => Scalar.pow x y

@[simp] theorem ofSymbol?_symbol (op : Op) : ofSymbol? op.symbol = some op := by
  cases op <;> rfl

theorem symbol_of_ofSymbol? {c : Char} {op : Op} (h : ofSymbol? c = some op) : op.symbol = c := by
  unfold ofSymbol? at h
  split at h <;> simp_all <;> subst h <;> rfl

end Op

def isOperator (c : Char) : Bool := (Op.ofSymbol? c).isSome

/-- The operator that a character stands for, if it belongs to the tier. -/
def Tier.opOf? (t : Tier) (c : Char) : Option Op :=
  (Op.ofSymbol? c).filter fun op => op.tier = t

theorem Tier.ofSymbol?_of_opOf? {t : Tier} {c : Char} {op : Op} (h : t.opOf? c = some op) :
    Op.ofSymbol? c = some op := by
  rw [opOf?, Option.filter_eq_some_iff] at h
  exact h.1

end PlotFormula
