import Mathlib.Tactic.ByContra
import PlotFormula.Grammar.Split
import PlotFormula.Proofs.Grammar.Levels

/-! # Where a text is cut

A text is cut at an operator that stands outside all parentheses and has an operand before it. The search
for the rightmost operator of a tier finds exactly the cut to whose right there is no other.
-/
namespace PlotFormula

theorem Tier.opOf?_eq_some_iff {t : Tier} {c : Char} {op : Op} :
    t.opOf? c = some op ↔ op.symbol = c ∧ op.tier = t := by
  rw [opOf?, Option.filter_eq_some_iff, decide_eq_true_iff]
  constructor
  · rintro ⟨hc, ht⟩
    exact ⟨Op.symbol_of_ofSymbol? hc, ht⟩
  · rintro ⟨rfl, ht⟩
    exact ⟨Op.ofSymbol?_symbol op, ht⟩

@[simp] theorem isOperator_symbol (op : Op) : isOperator op.symbol = true := by
  cases op <;> rfl

theorem exists_op_of_isOperator {c : Char} (h : isOperator c = true) : ∃ op : Op, op.symbol = c := by
  obtain ⟨op, hop⟩ := Option.isSome_iff_exists.mp h
  exact ⟨op, Op.symbol_of_ofSymbol? hop⟩

namespace Grammar

@[simp] theorem bracket_symbol (op : Op) : bracket op.symbol = 0 := by
  cases op <;> rfl

/-- No operator of the tier in `s` is a place to cut, when `before` stands in front of `s`, nearest
character first, and the text after `s` closes `k` parentheses that it does not open. -/
def Uncut (t : Tier) (before : List Char) (k : Int) (s : List Char) : Prop :=
  ∀ (l : List Char) (op : Op) (r : List Char), s = l ++ op.symbol :: r → op.tier = t → level r = k →
    isBinaryAfter op.symbol (l.reverse ++ before) = false

structure IsCut (t : Tier) (r : Split) : Prop where
  tier_eq : r.op.tier = t
  level_right : level r.right = 0
  binary : isBinaryAfter r.op.symbol r.left.reverse = true

theorem uncut_nil (t : Tier) (before : List Char) (k : Int) : Uncut t before k [] := by
  intro l op r h
  simp at h

theorem uncut_singleton {t : Tier} {before : List Char} {k : Int} {c : Char} :
    Uncut t before k [c] ↔
      ∀ op : Op, op.symbol = c → op.tier = t → k = 0 → isBinaryAfter c before = false := by
  constructor
  · rintro h op rfl ht rfl
    exact h [] op [] rfl ht rfl
  · intro h l op r hs ht hr
    cases l with
    | nil =>
      obtain ⟨rfl, rfl⟩ := List.cons.inj hs
      exact h op rfl ht hr.symm
    | cons d l => simp at hs

theorem uncut_append {t : Tier} {before u v : List Char} {k : Int} :
    Uncut t before k (u ++ v) ↔
      Uncut t before (k - level v) u ∧ Uncut t (u.reverse ++ before) k v := by
  constructor
  · intro h
    refine ⟨?_, ?_⟩
    · rintro l op r rfl ht hr
      refine h l op (r ++ v) (by simp) ht ?_
      rw [level_append, hr]
      omega
    · rintro l op r rfl ht hr
      have := h (u ++ l) op r (by simp) ht hr
      simpa using this
  · rintro ⟨hu, hv⟩ l op r hs ht hr
    rcases append_eq_append_cons hs with ⟨m, hm, rfl⟩ | ⟨m, rfl, hm⟩
    · apply hu l op m hm ht
      rw [level_append] at hr
      omega
    · simpa using hv m op r hm ht hr

theorem uncut_cons {t : Tier} {before s : List Char} {k : Int} {c : Char} :
    Uncut t before k (c :: s) ↔
      Uncut t before (k - level s) [c] ∧ Uncut t (c :: before) k s := by
  rw [← List.singleton_append, uncut_append]
  simp

theorem uncut_of_not_isOperator {t : Tier} {before s : List Char} {k : Int}
    (h : ∀ c ∈ s, isOperator c = false) : Uncut t before k s := by
  rintro l op r rfl
  have := h op.symbol (by simp)
  simp at this

theorem uncut_char {t : Tier} {before : List Char} {k : Int} {c : Char} (h : isOperator c = false) :
    Uncut t before k [c] :=
  uncut_of_not_isOperator (List.forall_mem_singleton.mpr h)

/-- Where an operand begins: at the beginning of a text or after an operator. -/
def OperandPosition (before : List Char) : Prop := ∀ c ∈ before.head?, isOperator c = true

/-- Every operator after the text is binary. -/
def EndsOperand (s : List Char) : Prop :=
  ∀ c before, OperandPosition before → isBinaryAfter c (s.reverse ++ before) = true

theorem operandPosition_nil : OperandPosition [] := by simp [OperandPosition]

theorem operandPosition_symbol (op : Op) (before : List Char) : OperandPosition (op.symbol :: before) := by
  simp [OperandPosition]

theorem OperandPosition.not_binary {before : List Char} (h : OperandPosition before) (c : Char) :
    isBinaryAfter c before = false := by
  cases before with
  | nil => rfl
  | cons d before => simp [isBinaryAfter, h d rfl]

theorem isDigit_eq_false_of_isOperator {c : Char} (h : isOperator c = true) : c.isDigit = false := by
  obtain ⟨op, rfl⟩ := exists_op_of_isOperator h
  cases op <;> rfl

theorem isExponentSign_of_ne {c d : Char} (h : d ≠ 'e') (before : List Char) :
    isExponentSign c (d :: before) = false := by
  unfold isExponentSign
  split
  next heq => exact absurd (List.cons.inj heq).1 h
  next => rfl

theorem endsOperand_of_getLast? {s : List Char} {d : Char} (hlast : s.getLast? = some d)
    (hop : isOperator d = false) (he : d ≠ 'e') : EndsOperand s := by
  obtain ⟨t, rfl⟩ := List.getLast?_eq_some_iff.mp hlast
  intro c before _
  rw [List.reverse_append, List.reverse_singleton, List.singleton_append, List.cons_append, isBinaryAfter,
    isExponentSign_of_ne he, hop]
  rfl

theorem EndsOperand.after {r : List Char} (hr : EndsOperand r) (op : Op) (l : List Char) :
    EndsOperand (l ++ op.symbol :: r) := by
  intro c before _
  have := hr c (op.symbol :: (l.reverse ++ before)) (operandPosition_symbol _ _)
  simpa using this

theorem EndsOperand.ne_nil {s : List Char} (h : EndsOperand s) : s ≠ [] := by
  rintro rfl
  have := h ' ' [] operandPosition_nil
  simp [isBinaryAfter] at this

theorem EndsOperand.binary {s : List Char} (h : EndsOperand s) (c : Char) :
    isBinaryAfter c s.reverse = true := by
  simpa using h c [] operandPosition_nil

/-- A place to cut an operand alone is also one in the operand's context. -/
theorem isBinaryAfter_append {c : Char} {s before : List Char} (hbefore : OperandPosition before)
    (h : isBinaryAfter c s = true) : isBinaryAfter c (s ++ before) = true := by
  match s with
  | [] => simp [isBinaryAfter] at h
  | d :: e :: s =>
    have : isExponentSign c (d :: e :: s ++ before) = isExponentSign c (d :: e :: s) := by
      by_cases hd : d = 'e'
      · subst hd; rfl
      · rw [isExponentSign_of_ne hd, List.cons_append, isExponentSign_of_ne hd]
    rw [isBinaryAfter] at h
    rwa [List.cons_append, isBinaryAfter, ← List.cons_append, this]
  | [d] =>
    have : isExponentSign c (d :: before) = false := by
      by_cases hd : d = 'e'
      · subst hd
        cases before with
        | nil => rfl
        | cons e before => simp [isExponentSign, isDigit_eq_false_of_isOperator (hbefore e rfl)]
      · exact isExponentSign_of_ne hd before
    rw [isBinaryAfter, Bool.and_eq_true] at h
    rw [List.singleton_append, isBinaryAfter, this, h.1]
    rfl

theorem Uncut.alone {t : Tier} {before s : List Char} {k : Int} (hbefore : OperandPosition before)
    (h : Uncut t before k s) : Uncut t [] k s := by
  intro l op r hs ht hr
  by_contra hb
  rw [Bool.not_eq_false, List.append_nil] at hb
  have := isBinaryAfter_append hbefore hb
  rw [h l op r hs ht hr] at this
  simp at this

theorem uncut_parens {t : Tier} {before s : List Char} (h : ∀ l r, s = l ++ r → level r ≤ 0) :
    Uncut t before 0 ('(' :: s ++ [')']) := by
  refine uncut_append.mpr ⟨?_, uncut_char (by decide)⟩
  refine uncut_cons.mpr ⟨uncut_char (by decide), ?_⟩
  rintro l op r hs - hr
  have := h (l ++ [op.symbol]) r (by simp [hs])
  rw [hr] at this
  exact absurd this (by decide)

theorem splitFrom_of_uncut {t : Tier} {before u : List Char} {k : Int} (h : Uncut t before k u)
    (right : List Char) :
    splitFrom t k right (u.reverse ++ before) = splitFrom t (k - level u) (u ++ right) before := by
  obtain ⟨v, rfl⟩ : ∃ v, u = v.reverse := ⟨u.reverse, by simp⟩
  rw [List.reverse_reverse]
  induction v generalizing k right with
  | nil => simp
  | cons c v ih =>
    rw [List.reverse_cons] at h ⊢
    obtain ⟨hv, hc⟩ := uncut_append.mp h
    have hnone : (if k = 0 ∧ isBinaryAfter c (v ++ before) then t.opOf? c else none) = none := by
      split
      next hk =>
        by_contra hop
        obtain ⟨op, hop⟩ := Option.ne_none_iff_exists'.mp hop
        obtain ⟨hsymbol, ht⟩ := Tier.opOf?_eq_some_iff.mp hop
        have := uncut_singleton.mp hc op hsymbol ht hk.1
        simp_all
      next => rfl
    have hlevel : level [c] = bracket c := by simp
    rw [hlevel] at hv
    rw [List.cons_append, splitFrom, hnone]
    simp only
    rw [ih _ hv, level_append, hlevel, List.append_assoc, List.singleton_append]
    congr 1
    omega

theorem splitFrom_eq_some {t : Tier} {k : Int} {right before : List Char} {r : Split}
    (h : splitFrom t k right before = some r) :
    ∃ u, before.reverse = r.left ++ r.op.symbol :: u ∧ r.right = u ++ right ∧ r.op.tier = t ∧
      level u = k ∧ isBinaryAfter r.op.symbol r.left.reverse = true ∧
      Uncut t (r.op.symbol :: r.left.reverse) k u := by
  induction before generalizing k right with
  | nil => simp [splitFrom] at h
  | cons c before ih =>
    rw [splitFrom] at h
    split at h
    next op hop =>
      obtain rfl := Option.some.inj h
      split at hop
      next hk =>
        obtain ⟨rfl, ht⟩ := Tier.opOf?_eq_some_iff.mp hop
        exact ⟨[], by simp, rfl, ht, hk.1.symm, by simpa using hk.2, uncut_nil _ _ _⟩
      next => simp at hop
    next hnone =>
      obtain ⟨u, hbefore, hright, ht, hlevel, hbinary, hu⟩ := ih h
      refine ⟨u ++ [c], by simp [hbefore], by simp [hright], ht, ?_, hbinary, ?_⟩
      · rw [level_append, hlevel, level_cons, level_nil]
        omega
      · refine uncut_append.mpr ⟨by simpa using hu, uncut_singleton.mpr ?_⟩
        have hcontext : u.reverse ++ r.op.symbol :: r.left.reverse = before := by
          have := congrArg List.reverse hbefore
          simpa using this.symm
        rintro op rfl ht' rfl
        rw [hcontext]
        by_contra hb
        simp [hb, Tier.opOf?_eq_some_iff.mpr ⟨rfl, ht'⟩] at hnone

theorem splitFrom_eq_none {t : Tier} {k : Int} {right before : List Char}
    (h : splitFrom t k right before = none) : Uncut t [] k before.reverse := by
  induction before generalizing k right with
  | nil => exact uncut_nil _ _ _
  | cons c before ih =>
    rw [splitFrom] at h
    split at h
    next => simp at h
    next hnone =>
      rw [List.reverse_cons]
      refine uncut_append.mpr ⟨by simpa using ih h, uncut_singleton.mpr ?_⟩
      rintro op rfl ht rfl
      by_contra hb
      rw [List.reverse_reverse, List.append_nil] at hb
      simp [hb, Tier.opOf?_eq_some_iff.mpr ⟨rfl, ht⟩] at hnone

/-- The search finds the rightmost cut. -/
theorem split?_eq_some_iff {t : Tier} {s : List Char} {r : Split} :
    split? t s = some r ↔
      r.whole = s ∧ IsCut t r ∧ Uncut t (r.op.symbol :: r.left.reverse) 0 r.right := by
  constructor
  · intro h
    obtain ⟨u, -, hright, ht, hlevel, hbinary, hu⟩ := splitFrom_eq_some h
    rw [List.append_nil] at hright
    rw [hright]
    exact ⟨whole_split? h, ⟨ht, by rw [hright, hlevel], hbinary⟩, hu⟩
  · rintro ⟨rfl, hcut, hu⟩
    have hskip := splitFrom_of_uncut hu []
    have hop : t.opOf? r.op.symbol = some r.op := Tier.opOf?_eq_some_iff.mpr ⟨rfl, hcut.tier_eq⟩
    have hzero : (0 : Int) - level r.right = 0 := by rw [hcut.level_right]; rfl
    rw [split?, Split.whole, List.reverse_append, List.reverse_cons, List.append_assoc,
      List.singleton_append, hskip, splitFrom, if_pos ⟨hzero, hcut.binary⟩, hop]
    simp

theorem split?_eq_none_iff {t : Tier} {s : List Char} : split? t s = none ↔ Uncut t [] 0 s := by
  constructor
  · intro h
    simpa using splitFrom_eq_none h
  · intro h
    have := splitFrom_of_uncut h []
    rw [List.append_nil] at this
    rw [split?, this, splitFrom]

end Grammar
end PlotFormula
