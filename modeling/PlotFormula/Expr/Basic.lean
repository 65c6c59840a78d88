import PlotFormula.Catalog.Func
import PlotFormula.Op

/-! # Formula trees

A formula as a tree of constants, variables, operations and calls. A variable is its slot, the position
of its coordinate in a point. Questions about a tree are answered by recursion on it and on the argument
lists inside it; each recursion on a list is the list operation that the lemma after it names.
-/
namespace PlotFormula

inductive Expr (α : Type) where
  | const (c : α)
  | var (slot : Nat)
  | neg (inner : Expr α)
  | binary (op : Op) (left right : Expr α)
  | call (f : Func) (args : List (Expr α))
  /-- Stands in for a text that is not a formula. -/
  | invalid
deriving Repr

namespace Expr
variable {α : Type}

instance : Inhabited (Expr α) := ⟨invalid⟩

mutual

/-- Induction on a tree, in which a call has the hypothesis for each of its arguments. -/
@[elab_as_elim, induction_eliminator]
theorem ind {motive : Expr α → Prop} (const : ∀ c, motive (const c)) (var : ∀ s, motive (var s))
    (neg : ∀ a, motive a → motive (neg a))
    (binary : ∀ op a b, motive a → motive b → motive (binary op a b))
    (call : ∀ f args, (∀ a ∈ args, motive a) → motive (call f args)) (invalid : motive invalid) :
    ∀ a, motive a
  | .const c => const c
  | .var s => var s
  | .neg a => neg a (ind const var neg binary call invalid a)
  | .binary op a b =>
    binary op a b (ind const var neg binary call invalid a) (ind const var neg binary call invalid b)
  | .call f args => call f args (indArgs const var neg binary call invalid args)
  | .invalid => invalid

theorem indArgs {motive : Expr α → Prop} (const : ∀ c, motive (.const c)) (var : ∀ s, motive (.var s))
    (neg : ∀ a, motive a → motive (.neg a))
    (binary : ∀ op a b, motive a → motive b → motive (.binary op a b))
    (call : ∀ f args, (∀ a ∈ args, motive a) → motive (.call f args)) (invalid : motive .invalid) :
    ∀ args : List (Expr α), ∀ a ∈ args, motive a
  | [] => by simp
  | a :: as => List.forall_mem_cons.mpr
    ⟨ind const var neg binary call invalid a, indArgs const var neg binary call invalid as⟩

end

def isInvalid : Expr α → Bool
  | invalid => true
  | _ => false

mutual

def isConstant : Expr α → Bool
  | const _ | invalid => true
  | var _ => false
  | neg a => a.isConstant
  | binary _ a b => a.isConstant && b.isConstant
  | call _ args => areConstant args

def areConstant : List (Expr α) → Bool
  | [] => true
  | a :: as => a.isConstant && areConstant as

end

mutual

def dependsOn (slot : Nat) : Expr α → Bool
  | const _ | invalid => false
  | var s => s == slot
  | neg a => a.dependsOn slot
  | binary _ a b => a.dependsOn slot || b.dependsOn slot
  | call _ args => someDependsOn slot args

def someDependsOn (slot : Nat) : List (Expr α) → Bool
  | [] => false
  | a :: as => a.dependsOn slot || someDependsOn slot as

end

mutual

def nodeCount : Expr α → Nat
  | const _ | var _ | invalid => 1
  | neg a => 1 + a.nodeCount
  | binary _ a b => 1 + a.nodeCount + b.nodeCount
  | call _ args => 1 + nodeCounts args

def nodeCounts : List (Expr α) → Nat
  | [] => 0
  | a :: as => a.nodeCount + nodeCounts as

end

theorem areConstant_eq (args : List (Expr α)) : areConstant args = args.all isConstant := by
  induction args with
  | nil => rfl
  | cons a as ih => simp [areConstant, ih]

theorem someDependsOn_eq (slot : Nat) (args : List (Expr α)) :
    someDependsOn slot args = args.any (dependsOn slot) := by
  induction args with
  | nil => rfl
  | cons a as ih => simp [someDependsOn, ih]

section Equality
variable [BEq α]

mutual

/-- Equality of trees. Constants are compared as scalars, so that over doubles a NaN differs from itself
and the two zeros are equal. -/
def beq : Expr α → Expr α → Bool
  | const c, const d => c == d
  | var s, var t => s == t
  | neg a, neg b => a.beq b
  | binary op a b, binary op' a' b' => op == op' && a.beq a' && b.beq b'
  | call f as, call g bs => f == g && beqArgs as bs
  | invalid, invalid => true
  | _, _ => false

def beqArgs : List (Expr α) → List (Expr α) → Bool
  | [], [] => true
  | a :: as, b :: bs => a.beq b && beqArgs as bs
  | _, _ => false

end

instance : BEq (Expr α) := ⟨beq⟩

theorem beq_iff_eq [LawfulBEq α] (a b : Expr α) : a.beq b = true ↔ a = b := by
  induction a generalizing b with
  | const c => cases b <;> simp [beq]
  | var s => cases b <;> simp [beq]
  | neg a ih => cases b <;> simp [beq, ih]
  | binary op a₁ a₂ ih₁ ih₂ => cases b <;> simp [beq, ih₁, ih₂, and_assoc]
  | call f as ih =>
    have args (bs : List (Expr α)) : beqArgs as bs = true ↔ as = bs := by
      induction as generalizing bs with
      | nil => cases bs <;> simp [beqArgs]
      | cons a as ihs =>
        cases bs with
        | nil => simp [beqArgs]
        | cons b bs =>
          simp [beqArgs, ih a (List.mem_cons_self ..), ihs fun c hc => ih c (List.mem_cons_of_mem _ hc)]
    cases b <;> simp [beq, args]
  | invalid => cases b <;> simp [beq]

end Equality

/-- Identity of trees, which tells the two zeros apart and is not the comparison `==` of doubles. -/
instance [DecidableEq α] : DecidableEq (Expr α) := fun a b =>
  decidable_of_iff (@beq α instBEqOfDecidableEq a b = true) (@beq_iff_eq α instBEqOfDecidableEq _ a b)

end Expr
end PlotFormula
