import PlotFormula.Expr.Basic
import PlotFormula.Proofs.Grammar.Literals
import PlotFormula.Proofs.Grammar.Written

/-! # The grammar of formulas

A formula with all its products written out is a phrase. With one letter for each kind of phrase the
grammar is

    E := E (+|-) U | U      M := M (*|/) V | W      W := W ^ X | A
    U := - U | M            V := - V | W            X := - X | A
    A := ( E ) | name | name ( ) | name ( E {, E} ) | variable | literal

so that operators of one tier associate to the left and a minus sign binds looser than the tiers after the
one whose operand it stands in.
-/
namespace PlotFormula

def Tier.rank : Tier → Nat
  | additive => 0
  | multiplicative => 1
  | power => 2

namespace Grammar

/-- The kinds of phrases: `E`, `M` and `W` are the chains of operations of a tier, `U`, `V` and `X` what
stands to the right of an operator of a tier, and `A` is what no operator is outside of. -/
inductive Phrase where
  | chain (t : Tier)
  | operand (t : Tier)
  | atom
deriving DecidableEq

namespace Phrase

def base : Phrase → Phrase
  | chain .additive => operand .additive
  | operand .additive => chain .multiplicative
  | chain .multiplicative | operand .multiplicative => chain .power
  | chain .power | operand .power | atom => atom

/-- Whether operators of a tier may stand outside all parentheses. -/
def Exposes : Phrase → Tier → Prop
  | chain t, u => t.rank ≤ u.rank
  | operand t, u => t.rank < u.rank
  | atom, _ => False

def Signed : Phrase → Prop
  | chain t => t = .additive
  | operand _ => True
  | atom => False

theorem exposes_of_base {p : Phrase} {t : Tier} (h : p.base.Exposes t) : p.Exposes t := by
  rcases p with (_ | _ | _) | (_ | _ | _) | _ <;> cases t <;> revert h <;>
    simp [base, Exposes, Tier.rank]

theorem signed_of_base {p : Phrase} (h : p.base.Signed) : p.Signed := by
  rcases p with (_ | _ | _) | (_ | _ | _) | _ <;> simp_all [base, Signed]

end Phrase

/-- Phrases with the trees that they stand for. -/
inductive Derives (vars : List Char) : Phrase → List Char → Expr Float → Prop
  | operation {t : Tier} {op : Op} {l r : List Char} {a b : Expr Float} (ht : op.tier = t)
      (hl : Derives vars (.chain t) l a) (hr : Derives vars (.operand t) r b) :
      Derives vars (.chain t) (l ++ op.symbol :: r) (.binary op a b)
  | negation {t : Tier} {s : List Char} {a : Expr Float} (h : Derives vars (.operand t) s a) :
      Derives vars (.operand t) ('-' :: s) (.neg a)
  | base {p : Phrase} {s : List Char} {a : Expr Float} (hp : p ≠ .atom) (h : Derives vars p.base s a) :
      Derives vars p s a
  | group {s : List Char} {a : Expr Float} (h : Derives vars (.chain .additive) s a) :
      Derives vars .atom ('(' :: s ++ [')']) a
  | name {f : Func} (hf : f.arity.accepts 0 = true) : Derives vars .atom f.name (.call f [])
  | call {f : Func} {args : List (List Char × Expr Float)} (hf : f.arity.accepts args.length = true)
      (h : ∀ p ∈ args, Derives vars (.chain .additive) p.1 p.2) :
      Derives vars .atom (f.name ++ ('(' :: joinArguments (args.map Prod.fst) ++ [')']))
        (.call f (args.map Prod.snd))
  | slot {c : Char} {i : Nat} (hc : c ≠ 'e') (hi : vars.idxOf? c = some i) : Derives vars .atom [c] (.var i)
  | literal {s : List Char} {x : Float} (h : Literal s x) : Derives vars .atom s (.const x)

theorem isNameStart_of_mem_name (f : Func) : ∀ c ∈ f.name, isNameStart c = true := by
  have hall : f.name.all isNameStart = true := by cases f <;> decide
  exact List.all_eq_true.mp hall

theorem name_ne_nil (f : Func) : f.name ≠ [] := by
  cases f <;> decide

theorem bracket_of_isNameStart {c : Char} (h : isNameStart c = true) : bracket c = 0 ∧ c ≠ ',' := by
  refine ⟨bracket_of_ne ?_ ?_, ?_⟩ <;> rintro rfl <;> exact absurd h (by decide)

theorem isOperator_of_isNameStart {c : Char} (h : isNameStart c = true) : isOperator c = false := by
  by_contra hop
  obtain ⟨op, rfl⟩ := exists_op_of_isOperator (by simpa using hop)
  have := endsWords_symbol op
  rw [EndsWords, isNamePart_of_isNameStart h] at this
  simp at this

theorem closed_name (f : Func) : Closed f.name :=
  closed_of_forall fun c hc => bracket_of_isNameStart (isNameStart_of_mem_name f c hc)

theorem uncut_name (f : Func) (t : Tier) (before : List Char) (k : Int) : Uncut t before k f.name :=
  uncut_of_not_isOperator fun c hc => isOperator_of_isNameStart (isNameStart_of_mem_name f c hc)

theorem endsOperand_name (f : Func) : EndsOperand f.name := by
  by_cases hf : f = .e
  · subst hf
    intro c before hbefore
    cases before with
    | nil => rfl
    | cons d before =>
      simp [Func.name, isBinaryAfter, isExponentSign, isDigit_eq_false_of_isOperator (hbefore d rfl)]
      decide
  · have hlast := List.getLast?_eq_some_getLast (name_ne_nil f)
    refine endsOperand_of_getLast? hlast ?_ ?_
    · exact isOperator_of_isNameStart (isNameStart_of_mem_name f _ (List.getLast_mem _))
    · revert hf hlast
      cases f <;> decide

namespace Derives
variable {vars s : List Char} {p : Phrase} {a : Expr Float}

theorem closed (hvars : IsPlain vars) (h : Derives vars p s a) : Closed s := by
  induction h with
  | @operation t op l r a b ht hl hr ihl ihr =>
    refine ihl.append (ihr.cons (bracket_symbol op) ?_)
    cases op <;> decide
  | negation h ih => exact ih.cons (by decide) (by decide)
  | base hp h ih => exact ih
  | group h ih => exact ih.toNested.parens
  | name => exact closed_name _
  | @call f args hf h ih =>
    refine (closed_name f).append (Nested.parens (nested_join ?_))
    intro q hq
    obtain ⟨arg, harg, rfl⟩ := List.mem_map.mp hq
    exact ih arg harg
  | @slot c i hc hi =>
    have hmem : c ∈ vars := List.isSome_idxOf?.mp (by rw [hi]; rfl)
    refine closed_singleton (bracket_of_ne ?_ ?_) ?_ <;> rintro rfl <;>
      exact absurd hmem (hvars.not_mem (by decide))
  | literal h => exact h.closed

theorem endsOperand (hvars : IsPlain vars) (h : Derives vars p s a) : EndsOperand s := by
  have hclose (u : List Char) : EndsOperand (u ++ [')']) :=
    endsOperand_of_getLast? List.getLast?_concat (by decide) (by decide)
  induction h with
  | operation ht hl hr ihl ihr => exact ihr.after _ _
  | negation h ih => exact ih.after .subtract []
  | base hp h ih => exact ih
  | group => exact hclose _
  | name => exact endsOperand_name _
  | call =>
    rw [← List.append_assoc]
    exact hclose _
  | @slot c i hc hi =>
    have hmem : c ∈ vars := List.isSome_idxOf?.mp (by rw [hi]; rfl)
    refine endsOperand_of_getLast? (d := c) rfl ?_ hc
    by_contra hop
    exact absurd hmem (hvars.not_mem (by simp [isReserved, hop]))
  | literal h => exact h.endsOperand

theorem ne_nil (hvars : IsPlain vars) (h : Derives vars p s a) : s ≠ [] := (h.endsOperand hvars).ne_nil

/-- A phrase is cut only at operators of the tiers that its kind exposes. The induction carries the
operand's context, since the first character of an operand is no binary operator there. -/
theorem uncut (hvars : IsPlain vars) (h : Derives vars p s a) {t : Tier} (ht : ¬ p.Exposes t)
    {before : List Char} (hbefore : OperandPosition before) : Uncut t before 0 s := by
  induction h generalizing before with
  | @operation u op l r a b hop hl hr ihl ihr =>
    have hlevel : (0 : Int) - level (op.symbol :: r) = 0 := by
      simp [(hr.closed hvars).level_eq]
    refine uncut_append.mpr ⟨by rw [hlevel]; exact ihl ht hbefore, uncut_cons.mpr ⟨?_, ?_⟩⟩
    · apply uncut_singleton.mpr
      intro op' hsymbol htier
      have hsame : op' = op := Option.some.inj (by rw [← Op.ofSymbol?_symbol, hsymbol, Op.ofSymbol?_symbol])
      subst hsame hop htier
      exact absurd (Nat.le_refl _) ht
    · exact ihr (fun hr => ht (Nat.le_of_lt hr)) (operandPosition_symbol _ _)
  | @negation u s a h ih =>
    refine uncut_cons.mpr ⟨?_, ih ht (operandPosition_symbol .subtract before)⟩
    exact uncut_singleton.mpr fun _ _ _ _ => hbefore.not_binary '-'
  | base hp h ih => exact ih (fun hb => ht (Phrase.exposes_of_base hb)) hbefore
  | group h ih => exact uncut_parens fun l r => (h.closed hvars).toNested.suffix_nonpos
  | name => exact uncut_name _ _ _ _
  | @call f args hf h ih =>
    have hargs : Nested (joinArguments (args.map Prod.fst)) := nested_join fun q hq => by
      obtain ⟨arg, harg, rfl⟩ := List.mem_map.mp hq
      exact (h arg harg).closed hvars
    exact uncut_append.mpr ⟨uncut_name _ _ _ _, uncut_parens fun l r => hargs.suffix_nonpos⟩
  | @slot c i hc hi => exact uncut_singleton.mpr fun _ _ _ _ => hbefore.not_binary c
  | literal h => exact h.uncut t hbefore

theorem head_ne_minus (hvars : IsPlain vars) (h : Derives vars p s a) (hp : ¬ p.Signed) :
    s.head? ≠ some '-' := by
  have hname (f : Func) (t : List Char) : (f.name ++ t).head? ≠ some '-' := by
    obtain ⟨c, u, hc⟩ := List.exists_cons_of_ne_nil (name_ne_nil f)
    have := isNameStart_of_mem_name f c (by simp [hc])
    rw [hc]
    rintro heq
    obtain rfl : c = '-' := by simpa using heq
    exact absurd this (by decide)
  induction h with
  | @operation t op l r a b ht hl hr ihl ihr =>
    rw [List.head?_append_of_ne_nil _ (hl.ne_nil hvars)]
    exact ihl hp
  | negation => exact absurd trivial hp
  | base hq h ih => exact ih fun hs => hp (Phrase.signed_of_base hs)
  | group => simp
  | @name f => simpa using hname f []
  | call => exact hname _ _
  | @slot c i hc hi =>
    have hmem : c ∈ vars := List.isSome_idxOf?.mp (by rw [hi]; rfl)
    rintro heq
    obtain rfl : c = '-' := by simpa using heq
    exact absurd hmem (hvars.not_mem (by decide))
  | literal h =>
    obtain ⟨c, hc, hd⟩ := h.head
    rw [Option.mem_def.mp hc]
    rintro heq
    obtain rfl := Option.some.inj heq
    exact absurd hd (by decide)

theorem ofAtom (h : Derives vars .atom s a) (p : Phrase) : Derives vars p s a := by
  have hpower : Derives vars (.chain .power) s a := .base (by decide) h
  have hproduct : Derives vars (.chain .multiplicative) s a := .base (by decide) hpower
  have hoperand : Derives vars (.operand .additive) s a := .base (by decide) hproduct
  cases p with
  | chain t =>
    cases t with
    | additive => exact .base (by decide) hoperand
    | multiplicative => exact hproduct
    | power => exact hpower
  | operand t =>
    cases t with
    | additive => exact hoperand
    | multiplicative => exact .base (by decide) hpower
    | power => exact .base (by decide) h
  | atom => exact h

theorem toOperand (h : Derives vars p s a) (hp : p ≠ .chain .additive) :
    Derives vars (.operand .additive) s a := by
  induction h with
  | @operation t op l r a b ht hl hr ihl ihr =>
    have h := Derives.operation ht hl hr
    cases t with
    | additive => exact absurd rfl hp
    | multiplicative => exact .base (by decide) h
    | power => exact .base (by decide) (.base (by decide) h)
  | negation h ih => exact .negation (ih (by simp))
  | @base p s a hq h ih =>
    apply ih
    rcases p with (_ | _ | _) | (_ | _ | _) | _ <;> decide
  | group h => exact ofAtom (.group h) _
  | name hf => exact ofAtom (.name hf) _
  | call hf h => exact ofAtom (.call hf h) _
  | slot hc hi => exact ofAtom (.slot hc hi) _
  | literal h => exact ofAtom (.literal h) _

theorem toSum (h : Derives vars p s a) : Derives vars (.chain .additive) s a := by
  by_cases hp : p = .chain .additive
  · exact hp ▸ h
  · exact .base (by decide) (h.toOperand hp)

/-- A chain is an operation, cut where the search cuts it, or it has no operator of its tier. -/
theorem chain_cases (hvars : IsPlain vars) {t : Tier} (h : Derives vars (.chain t) s a) :
    (∃ op l r x y, split? t s = some ⟨l, op, r⟩ ∧ a = .binary op x y ∧ Derives vars (.chain t) l x ∧
      Derives vars (.operand t) r y) ∨ Uncut t [] 0 s ∧ Derives vars (Phrase.chain t).base s a := by
  cases h with
  | @operation _ op l r x y ht hl hr =>
    refine .inl ⟨op, l, r, x, y, split?_eq_some_iff.mpr ⟨rfl, ?_, ?_⟩, rfl, hl, hr⟩
    · exact ⟨ht, (hr.closed hvars).level_eq, (hl.endsOperand hvars).binary _⟩
    · exact hr.uncut hvars (Nat.lt_irrefl _) (operandPosition_symbol _ _)
  | base hp h =>
    refine .inr ⟨h.uncut hvars ?_ operandPosition_nil, h⟩
    cases t <;> simp [Phrase.base, Phrase.Exposes, Tier.rank]

theorem base_of_uncut (hvars : IsPlain vars) {t : Tier} (h : Derives vars (.chain t) s a)
    (hs : Uncut t [] 0 s) : Derives vars (Phrase.chain t).base s a := by
  rcases h.chain_cases hvars with ⟨op, l, r, x, y, hsplit, -⟩ | ⟨-, h⟩
  · rw [split?_eq_none_iff.mpr hs] at hsplit
    simp at hsplit
  · exact h

theorem toChain (hvars : IsPlain vars) (h : Derives vars (.chain .additive) s a) {t : Tier}
    (hs : ∀ u : Tier, u.rank < t.rank → Uncut u [] 0 s) (hhead : t ≠ .additive → s.head? ≠ some '-') :
    Derives vars (.chain t) s a := by
  have hproduct (h : Derives vars (.chain .additive) s a) (hs : Uncut .additive [] 0 s)
      (hhead : s.head? ≠ some '-') : Derives vars (.chain .multiplicative) s a := by
    cases (h.base_of_uncut hvars hs : Derives vars (.operand .additive) s a) with
    | negation => simp at hhead
    | base _ h => exact h
  cases t with
  | additive => exact h
  | multiplicative => exact hproduct h (hs .additive (by decide)) (hhead (by decide))
  | power =>
    have := hproduct h (hs .additive (by decide)) (hhead (by decide))
    exact this.base_of_uncut hvars (hs .multiplicative (by decide))

theorem toTighterOperand (hvars : IsPlain vars) {t u : Tier} (hu : u.rank = t.rank + 1)
    (h : Derives vars (.operand t) s a) (hs : Uncut u [] 0 s) : Derives vars (.operand u) s a := by
  generalize hp : Phrase.operand t = p at h
  induction h with
  | negation h ih =>
    exact .negation (ih ((uncut_cons.mp hs).2.alone (operandPosition_symbol .subtract [])) hp)
  | @base p s a _ h ih =>
    subst hp
    have hbase : Derives vars (.chain u) s a := by cases t <;> cases u <;> simp_all [Tier.rank, Phrase.base]
    refine .base (by simp) ?_
    have := hbase.base_of_uncut hvars hs
    cases t <;> cases u <;> simp_all [Tier.rank, Phrase.base]
  | _ => simp at hp

/-- A formula without operators of a tier and looser ones is an operand of that tier. -/
theorem toOperandOf (hvars : IsPlain vars) (h : Derives vars (.chain .additive) s a) {t : Tier}
    (hs : ∀ u : Tier, u.rank ≤ t.rank → Uncut u [] 0 s) : Derives vars (.operand t) s a := by
  have hoperand : Derives vars (.operand .additive) s a := h.base_of_uncut hvars (hs .additive (Nat.zero_le _))
  cases t with
  | additive => exact hoperand
  | multiplicative => exact hoperand.toTighterOperand hvars rfl (hs .multiplicative (by decide))
  | power =>
    have := hoperand.toTighterOperand hvars rfl (hs .multiplicative (by decide))
    exact this.toTighterOperand hvars rfl (hs .power (by decide))

theorem toAtom (hvars : IsPlain vars) (h : Derives vars (.chain .additive) s a)
    (hs : ∀ t : Tier, Uncut t [] 0 s) (hhead : s.head? ≠ some '-') : Derives vars .atom s a := by
  have hpower : Derives vars (.chain .power) s a := h.toChain hvars (fun u _ => hs u) fun _ => hhead
  exact hpower.base_of_uncut hvars (hs .power)

end Derives
end Grammar
end PlotFormula
