import PlotFormula.Grammar.Form
import PlotFormula.Proofs.Grammar.Cuts

/-! # Literals

A mantissa is decimal digits with at most one point and at least one digit. It may be followed by an
exponent, and the reader of decimals reads exactly such texts.
-/
namespace PlotFormula
namespace Decimal

def AllDigits (s : List Char) : Prop := ∀ c ∈ s, c.isDigit = true

/-- A mantissa, all its digits, and how many of them stand after the point. -/
inductive Mantissa : List Char → List Char → Nat → Prop
  | whole {ds : List Char} (hds : AllDigits ds) (hne : ds ≠ []) : Mantissa ds ds 0
  | point {ds fs : List Char} (hds : AllDigits ds) (hfs : AllDigits fs) (hne : ds ++ fs ≠ []) :
      Mantissa (ds ++ '.' :: fs) (ds ++ fs) fs.length

/-- What may follow a mantissa, with a sign or without, and the exponent that it stands for. -/
inductive Exponent : Bool → List Char → Int → Prop
  | absent : Exponent false [] 0
  | unsigned {ds : List Char} (hds : AllDigits ds) (hne : ds ≠ []) :
      Exponent false ('e' :: ds) (natOfDigits ds)
  | plus {ds : List Char} (hds : AllDigits ds) (hne : ds ≠ []) :
      Exponent true ('e' :: '+' :: ds) (natOfDigits ds)
  | minus {ds : List Char} (hds : AllDigits ds) (hne : ds ≠ []) :
      Exponent true ('e' :: '-' :: ds) (-(natOfDigits ds : Int))

theorem AllDigits.append {s t : List Char} (hs : AllDigits s) (ht : AllDigits t) : AllDigits (s ++ t) := by
  intro c hc
  rcases List.mem_append.mp hc with h | h
  · exact hs c h
  · exact ht c h

theorem allDigits_takeWhile (s : List Char) : AllDigits (s.takeWhile Char.isDigit) :=
  List.all_eq_true.mp List.all_takeWhile

theorem AllDigits.span {ds t : List Char} (hds : AllDigits ds) (ht : ∀ c ∈ t.head?, c.isDigit = false) :
    (ds ++ t).takeWhile Char.isDigit = ds ∧ (ds ++ t).dropWhile Char.isDigit = t := by
  have htake : t.takeWhile Char.isDigit = [] := by
    cases t with
    | nil => rfl
    | cons c t => simp [ht c rfl]
  have hdrop : t.dropWhile Char.isDigit = t := by
    cases t with
    | nil => rfl
    | cons c t => simp [ht c rfl]
  exact ⟨by rw [List.takeWhile_append_of_pos hds, htake, List.append_nil],
    by rw [List.dropWhile_append_of_pos hds, hdrop]⟩

theorem natOfText?_eq_some_iff {s : List Char} {n : Nat} :
    natOfText? s = some n ↔ s ≠ [] ∧ AllDigits s ∧ natOfDigits s = n := by
  rw [natOfText?]
  split
  next h => simp_all [AllDigits]
  next h =>
    refine ⟨by simp, ?_⟩
    rintro ⟨hne, hs, -⟩
    exact absurd ⟨hne, List.all_eq_true.mpr hs⟩ h

theorem exponentOfText?_eq_some_iff {s : List Char} {v : Int} :
    exponentOfText? s = some v ↔ ∃ signed, Exponent signed s v := by
  constructor
  · intro h
    unfold exponentOfText? at h
    split at h
    next =>
      obtain rfl := Option.some.inj h
      exact ⟨false, .absent⟩
    all_goals
      try obtain ⟨n, hn, rfl⟩ := Option.map_eq_some_iff.mp h
    next t =>
      obtain ⟨hne, ht, rfl⟩ := natOfText?_eq_some_iff.mp hn
      exact ⟨true, .minus ht hne⟩
    next t =>
      obtain ⟨hne, ht, rfl⟩ := natOfText?_eq_some_iff.mp hn
      exact ⟨true, .plus ht hne⟩
    next t =>
      obtain ⟨hne, ht, rfl⟩ := natOfText?_eq_some_iff.mp hn
      exact ⟨false, .unsigned ht hne⟩
    next => simp at h
  · rintro ⟨signed, h⟩
    cases h with
    | absent => rfl
    | @unsigned ds hds hne =>
      have hn := natOfText?_eq_some_iff.mpr ⟨hne, hds, rfl⟩
      unfold exponentOfText?
      split
      next heq => simp at heq
      next heq =>
        obtain rfl := (List.cons.inj heq).2
        exact absurd (hds '-' (by simp)) (by decide)
      next heq =>
        obtain rfl := (List.cons.inj heq).2
        exact absurd (hds '+' (by simp)) (by decide)
      next heq =>
        obtain rfl := (List.cons.inj heq).2
        rw [hn]
        rfl
      next heq => exact absurd rfl (heq ds)
    | plus hds hne => rw [exponentOfText?, natOfText?_eq_some_iff.mpr ⟨hne, hds, rfl⟩]; rfl
    | minus hds hne => rw [exponentOfText?, natOfText?_eq_some_iff.mpr ⟨hne, hds, rfl⟩]; rfl

theorem Exponent.head_eq {signed : Bool} {e : List Char} {v : Int} (h : Exponent signed e v) :
    ∀ c ∈ e.head?, c = 'e' := by
  cases h <;> simp

theorem Mantissa.ne_nil {m ds : List Char} {k : Nat} (h : Mantissa m ds k) : m ≠ [] := by
  cases h with
  | whole _ hne => exact hne
  | point => simp

theorem Mantissa.mem {m ds : List Char} {k : Nat} (h : Mantissa m ds k) :
    ∀ c ∈ m, c.isDigit = true ∨ c = '.' := by
  cases h with
  | whole hds => exact fun c hc => .inl (hds c hc)
  | point hds hfs =>
    intro c hc
    rcases List.mem_append.mp hc with hc | hc
    · exact .inl (hds c hc)
    · rcases List.mem_cons.mp hc with rfl | hc
      · exact .inr rfl
      · exact .inl (hfs c hc)

theorem ofText?_eq_some_iff {s : List Char} {d : Decimal} :
    ofText? s = some d ↔ ∃ m ds k signed e v, s = m ++ e ∧ Mantissa m ds k ∧ Exponent signed e v ∧
      d = ⟨natOfDigits ds, v - (k : Int)⟩ := by
  constructor
  · intro h
    have hwhole : s = s.takeWhile Char.isDigit ++ s.dropWhile Char.isDigit :=
      List.takeWhile_append_dropWhile.symm
    have hds := allDigits_takeWhile s
    unfold ofText? at h
    generalize s.takeWhile Char.isDigit = ds at h hwhole hds
    generalize s.dropWhile Char.isDigit = t at h hwhole
    subst hwhole
    simp only at h
    split at h
    next => simp at h
    next hne =>
      obtain ⟨v, hv, rfl⟩ := Option.map_eq_some_iff.mp h
      obtain ⟨signed, hexp⟩ := exponentOfText?_eq_some_iff.mp hv
      unfold fractionOfText at hexp hne ⊢
      split at hexp
      next u =>
        have hu : u = u.takeWhile Char.isDigit ++ u.dropWhile Char.isDigit :=
          List.takeWhile_append_dropWhile.symm
        refine ⟨ds ++ '.' :: u.takeWhile Char.isDigit, _, _, signed, _, v, ?_,
          .point hds (allDigits_takeWhile u) ?_, hexp, rfl⟩
        · rw [List.append_assoc, List.cons_append, ← hu]
        · simpa using hne
      next hpoint =>
        exact ⟨ds, ds, 0, signed, t, v, rfl, .whole hds (by simpa using hne), hexp, by simp⟩
  · rintro ⟨m, ds, k, signed, e, v, rfl, hm, he, rfl⟩
    have hv := exponentOfText?_eq_some_iff.mpr ⟨signed, he⟩
    have hdigit : ∀ c ∈ e.head?, c.isDigit = false := by
      intro c hc
      rw [he.head_eq c hc]
      decide
    cases hm with
    | whole hds hne =>
      obtain ⟨htake, hdrop⟩ := hds.span hdigit
      have hfraction : fractionOfText e = ([], e) := by
        cases e with
        | nil => rfl
        | cons c e => rw [he.head_eq c rfl]; rfl
      rw [ofText?, htake, hdrop, hfraction]
      simp [hne, hv]
    | @point ds fs hds hfs hne =>
      obtain ⟨htake, hdrop⟩ := hds.span (t := '.' :: (fs ++ e)) (by simp)
      obtain ⟨hftake, hfdrop⟩ := hfs.span hdigit
      have hfraction : fractionOfText ('.' :: (fs ++ e)) = (fs, e) := by
        rw [fractionOfText, hftake, hfdrop]
      rw [ofText?, List.append_assoc, List.cons_append, htake, hdrop, hfraction]
      have : ¬ (ds = [] ∧ fs = []) := by simpa using hne
      simp [this, hv]

end Decimal

namespace Grammar
open Decimal

/-- An optional plus sign, a mantissa and an exponent, whose sign needs a digit directly before its `e`. -/
inductive Literal : List Char → Float → Prop
  | mk {sign m ds e : List Char} {k : Nat} {signed : Bool} {v : Int} (hsign : sign = [] ∨ sign = ['+'])
      (hm : Mantissa m ds k) (he : Exponent signed e v)
      (hdigit : signed = true → ∃ d, m.getLast? = some d ∧ d.isDigit = true) :
      Literal (sign ++ m ++ e) (Decimal.toDouble ⟨natOfDigits ds, v - k⟩)

theorem level_of_digits {ds : List Char} (hds : AllDigits ds) : level ds = 0 := by
  refine level_eq_zero fun c hc => bracket_of_ne ?_ ?_ <;> rintro rfl <;>
    exact absurd (hds _ hc) (by decide)

theorem not_isOperator_of_digit {c : Char} (h : c.isDigit = true ∨ c = '.') : isOperator c = false ∧ c ≠ 'e' := by
  rcases h with h | rfl
  · refine ⟨?_, ?_⟩
    · by_contra hop
      rw [isDigit_eq_false_of_isOperator (by simpa using hop)] at h
      simp at h
    · rintro rfl
      exact absurd h (by decide)
  · exact ⟨by decide, by decide⟩

theorem not_isOperator_of_mantissa {m ds : List Char} {k : Nat} (hm : Mantissa m ds k) :
    ∀ c ∈ m, isOperator c = false ∧ c ≠ 'e' := fun c hc => not_isOperator_of_digit (hm.mem c hc)

theorem not_isOperator_of_digits {ds : List Char} (hds : AllDigits ds) :
    ∀ c ∈ ds, isOperator c = false ∧ c ≠ 'e' := fun c hc => not_isOperator_of_digit (.inl (hds c hc))

namespace Literal
variable {s : List Char} {x : Float}

theorem mem (h : Literal s x) :
    ∀ c ∈ s, c.isDigit = true ∨ c = '.' ∨ c = 'e' ∨ c = '+' ∨ c = '-' := by
  cases h with
  | @mk sign m ds e k signed v hsign hm he =>
    intro c hc
    rw [List.append_assoc, List.mem_append, List.mem_append] at hc
    rcases hc with hc | hc | hc
    · rcases hsign with rfl | rfl <;> simp_all
    · rcases hm.mem c hc with h | rfl <;> simp_all
    · cases he with
      | absent => simp at hc
      | unsigned hds => rcases List.mem_cons.mp hc with rfl | hc <;> simp_all [AllDigits]
      | plus hds => rcases List.mem_cons.mp hc with rfl | hc <;> grind [AllDigits]
      | minus hds => rcases List.mem_cons.mp hc with rfl | hc <;> grind [AllDigits]

theorem ascii (h : Literal s x) : ∀ c ∈ s, c.toNat < 128 := by
  intro c hc
  rcases h.mem c hc with hdigit | rfl | rfl | rfl | rfl
  · obtain ⟨-, hhigh⟩ := Char.isDigit_iff_toNat.mp hdigit
    exact Nat.lt_of_le_of_lt hhigh (by decide)
  all_goals decide

theorem closed (h : Literal s x) : Closed s := by
  apply closed_of_forall
  intro c hc
  have hdigit : c.isDigit = true → bracket c = 0 ∧ c ≠ ',' := by
    intro hd
    refine ⟨bracket_of_ne ?_ ?_, ?_⟩ <;> rintro rfl <;> exact absurd hd (by decide)
  rcases h.mem c hc with hd | rfl | rfl | rfl | rfl
  · exact hdigit hd
  all_goals decide

theorem head (h : Literal s x) : ∃ c ∈ s.head?, c.isDigit = true ∨ c = '.' ∨ c = '+' := by
  cases h with
  | @mk sign m ds e k signed v hsign hm he =>
    rcases hsign with rfl | rfl
    · obtain ⟨c, m, rfl⟩ := List.exists_cons_of_ne_nil hm.ne_nil
      rcases hm.mem c (by simp) with h | h
      · exact ⟨c, rfl, .inl h⟩
      · exact ⟨c, rfl, .inr (.inl h)⟩
    · exact ⟨'+', rfl, .inr (.inr rfl)⟩

theorem last (h : Literal s x) : ∃ c, s.getLast? = some c ∧ (c.isDigit = true ∨ c = '.') := by
  cases h with
  | @mk sign m ds e k signed v hsign hm he =>
    have hends {u t : List Char} (hu : u ≠ []) (hall : ∀ c ∈ u, c.isDigit = true ∨ c = '.') :
        ∃ c, (t ++ u).getLast? = some c ∧ (c.isDigit = true ∨ c = '.') := by
      refine ⟨u.getLast hu, ?_, hall _ (List.getLast_mem hu)⟩
      rw [List.getLast?_append, List.getLast?_eq_some_getLast hu]
      rfl
    cases he with
    | absent =>
      rw [List.append_nil]
      exact hends hm.ne_nil hm.mem
    | @unsigned ds hds hne =>
      rw [← List.singleton_append, ← List.append_assoc]
      exact hends hne fun c hc => .inl (hds c hc)
    | @plus ds hds hne =>
      rw [show 'e' :: '+' :: ds = ['e', '+'] ++ ds from rfl, ← List.append_assoc]
      exact hends hne fun c hc => .inl (hds c hc)
    | @minus ds hds hne =>
      rw [show 'e' :: '-' :: ds = ['e', '-'] ++ ds from rfl, ← List.append_assoc]
      exact hends hne fun c hc => .inl (hds c hc)

theorem endsOperand (h : Literal s x) : EndsOperand s := by
  obtain ⟨c, hlast, hc⟩ := h.last
  exact endsOperand_of_getLast? hlast (not_isOperator_of_digit hc).1 (not_isOperator_of_digit hc).2

theorem uncut_signed (t : Tier) (before : List Char) {ds : List Char} {d sign : Char} (hds : AllDigits ds)
    (hd : d.isDigit = true) (hsign : sign = '+' ∨ sign = '-') :
    Uncut t (d :: before) 0 ('e' :: sign :: ds) := by
  refine uncut_cons.mpr ⟨uncut_char (by decide), uncut_cons.mpr ⟨?_, ?_⟩⟩
  · apply uncut_singleton.mpr
    rintro op - - -
    rcases hsign with rfl | rfl <;> simp [isBinaryAfter, isExponentSign, hd]
  · exact uncut_of_not_isOperator fun c hc => (not_isOperator_of_digits hds c hc).1

theorem uncut (h : Literal s x) (t : Tier) {before : List Char} (hbefore : OperandPosition before) :
    Uncut t before 0 s := by
  cases h with
  | @mk sign m ds e k signed v hsign hm he hdigit =>
    have hmantissa {before' : List Char} {k : Int} : Uncut t before' k m :=
      uncut_of_not_isOperator fun c hc => (not_isOperator_of_mantissa hm c hc).1
    refine uncut_append.mpr ⟨uncut_append.mpr ⟨?_, hmantissa⟩, ?_⟩
    · rcases hsign with rfl | rfl
      · exact uncut_nil _ _ _
      · exact uncut_singleton.mpr fun _ _ _ _ => hbefore.not_binary '+'
    · have hlast : signed = true → ∃ d m', m = m' ++ [d] ∧ d.isDigit = true := by
        intro hs
        obtain ⟨d, hd, hdd⟩ := hdigit hs
        obtain ⟨m', hm'⟩ := List.getLast?_eq_some_iff.mp hd
        exact ⟨d, m', hm', hdd⟩
      cases he with
      | absent => exact uncut_nil _ _ _
      | unsigned hds =>
        refine uncut_cons.mpr ⟨uncut_char (by decide), ?_⟩
        exact uncut_of_not_isOperator fun c hc => (not_isOperator_of_digits hds c hc).1
      | plus hds =>
        obtain ⟨d, m', rfl, hd⟩ := hlast rfl
        simpa using uncut_signed t (m'.reverse ++ (sign.reverse ++ before)) hds hd (.inl rfl)
      | minus hds =>
        obtain ⟨d, m', rfl, hd⟩ := hlast rfl
        simpa using uncut_signed t (m'.reverse ++ (sign.reverse ++ before)) hds hd (.inr rfl)

end Literal

/-- Where a sign is not taken for an operator, a digit and an `e` stand before it. -/
theorem isDigit_of_uncut_sign {m t ds : List Char} (op : Op) (hm : m ≠ []) (hop : op.tier = .additive)
    (hds : AllDigits ds) (h : Uncut .additive [] 0 (t ++ m ++ 'e' :: op.symbol :: ds)) :
    ∃ d, m.getLast? = some d ∧ d.isDigit = true := by
  obtain ⟨m, d, rfl⟩ : ∃ u d, m = u ++ [d] := ⟨_, _, (List.dropLast_concat_getLast hm).symm⟩
  have hsign := h (t ++ (m ++ [d]) ++ ['e']) op ds (by simp) hop (level_of_digits hds)
  refine ⟨d, by simp, ?_⟩
  have he : isOperator 'e' = false := by decide
  have hsymbol : op.symbol = '+' ∨ op.symbol = '-' := by cases op <;> simp_all [Op.tier, Op.symbol]
  simp only [List.reverse_append, List.reverse_singleton, List.cons_append,
    isBinaryAfter, he, isExponentSign] at hsign
  rcases hsymbol with hsymbol | hsymbol <;> simpa [hsymbol] using hsign

/-- The reader of constants reads literals, where the sign of an exponent is not taken for an operator. -/
theorem numberOfText?_eq_some_iff {s : List Char} {x : Float} (hs : Uncut .additive [] 0 s) :
    Form.numberOfText? s = some x ↔ Literal s x := by
  have mk {sign m ds e : List Char} {k : Nat} {signed : Bool} {v : Int} (hsign : sign = [] ∨ sign = ['+'])
      (hm : Mantissa m ds k) (he : Exponent signed e v) (hs : Uncut .additive [] 0 (sign ++ m ++ e)) :
      Literal (sign ++ m ++ e) (Decimal.toDouble ⟨natOfDigits ds, v - k⟩) := by
    refine .mk hsign hm he ?_
    intro hsigned
    cases he with
    | absent => simp at hsigned
    | unsigned => simp at hsigned
    | plus hds => exact isDigit_of_uncut_sign .add hm.ne_nil rfl hds hs
    | minus hds => exact isDigit_of_uncut_sign .subtract hm.ne_nil rfl hds hs
  constructor
  · intro h
    unfold Form.numberOfText? at h
    split at h
    all_goals
      obtain ⟨d, hd, rfl⟩ := Option.map_eq_some_iff.mp h
      obtain ⟨m, ds, k, signed, e, v, rfl, hm, he, rfl⟩ := ofText?_eq_some_iff.mp hd
    · exact mk (.inr rfl) hm he hs
    · exact mk (.inl rfl) hm he hs
  · intro h
    cases h with
    | @mk sign m ds e k signed v hsign hm he =>
      have hd := ofText?_eq_some_iff.mpr ⟨m, ds, k, signed, e, v, rfl, hm, he, rfl⟩
      rcases hsign with rfl | rfl
      · obtain ⟨c, m, rfl⟩ := List.exists_cons_of_ne_nil hm.ne_nil
        have hc : c ≠ '+' := by
          rintro rfl
          exact absurd (hm.mem '+' (by simp)) (by decide)
        unfold Form.numberOfText?
        split
        next heq => exact absurd (List.cons.inj heq).1 hc
        next => rw [List.nil_append, hd]; rfl
      · rw [List.append_assoc, List.singleton_append, Form.numberOfText?, hd]
        rfl

end Grammar
end PlotFormula
