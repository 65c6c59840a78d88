import PlotFormula.Proofs.Grammar.Numeric
import PlotFormula.Proofs.Grammar.RoundTrip

/-! # Decimal texts

The reader of doubles takes an exponent after every mantissa. The search for operators takes the sign of an
exponent for no operator only where a digit and an `e` stand before it. So a decimal text is one constant, unless
its mantissa ends in a point and its exponent has a sign: it is then cut at the sign, and what stands before the
sign is nothing that could be read.
-/
namespace PlotFormula.Grammar
open Decimal
variable {vars s m ds e : List Char} {k : Nat} {signed : Bool} {v : Int}

def IsDecimalChar (c : Char) : Prop := c.isDigit = true ∨ c = '.' ∨ c = 'e' ∨ c = '+' ∨ c = '-'

theorem isDecimalChar_of_digits (hds : AllDigits ds) : ∀ c ∈ ds, IsDecimalChar c := fun c hc => .inl (hds c hc)

theorem isDecimalChar_of_mantissa (hm : Mantissa m ds k) : ∀ c ∈ m, IsDecimalChar c :=
  fun c hc => (hm.mem c hc).imp_right .inl

theorem isDecimalChar_of_exponent (he : Exponent signed e v) : ∀ c ∈ e, IsDecimalChar c := by
  have hmark : IsDecimalChar 'e' := .inr (.inr (.inl rfl))
  cases he with
  | absent => simp
  | unsigned hds => exact List.forall_mem_cons.mpr ⟨hmark, isDecimalChar_of_digits hds⟩
  | plus hds =>
    refine List.forall_mem_cons.mpr ⟨hmark, List.forall_mem_cons.mpr ⟨?_, isDecimalChar_of_digits hds⟩⟩
    exact .inr (.inr (.inr (.inl rfl)))
  | minus hds =>
    refine List.forall_mem_cons.mpr ⟨hmark, List.forall_mem_cons.mpr ⟨?_, isDecimalChar_of_digits hds⟩⟩
    exact .inr (.inr (.inr (.inr rfl)))

namespace IsDecimalChar

theorem lower {c : Char} (h : IsDecimalChar c) : Text.IsLower c ∧ c ≠ ' ' := by
  rcases h with h | rfl | rfl | rfl | rfl
  · exact lower_of_digit (.inl h)
  all_goals exact lower_of_ascii (by decide) (by decide) (by decide)

section
variable (hvars : IsPlain vars) (he : 'e' ∉ vars)
include hvars he

theorem impliesProduct_eq {c d : Char} (hc : c = '_' ∨ IsDecimalChar c) (hd : d = '_' ∨ IsDecimalChar d) :
    impliesProduct vars c d = false := by
  have hvariable : isVariable vars d = false := by
    refine isVariable_eq_false ?_
    rcases hd with rfl | hd | rfl | rfl | rfl | rfl
    · exact hvars.not_mem (by decide)
    · exact hvars.not_mem (by simp [isReserved, hd])
    · exact hvars.not_mem (by decide)
    · exact he
    · exact hvars.not_mem (by decide)
    · exact hvars.not_mem (by decide)
  have hopen : d ≠ '(' := by
    rintro rfl
    exact absurd hd (by unfold IsDecimalChar; decide)
  have hclose : c ≠ ')' ∧ c ≠ 'x' := by
    refine ⟨?_, ?_⟩ <;> rintro rfl <;> exact absurd hc (by unfold IsDecimalChar; decide)
  simp [impliesProduct, hvariable, hopen, hclose]

theorem written (h : ∀ c ∈ s, IsDecimalChar c) : Written vars s := by
  have hmask : ∀ c ∈ maskNames s, c = '_' ∨ IsDecimalChar c := by
    intro c hc
    rw [maskNames_eq_maskWith] at hc
    exact (mem_maskWith hc).imp_right (h c)
  exact (List.pairwise_of_forall_mem_list fun c hc d hd =>
    impliesProduct_eq hvars he (hmask c hc) (hmask d hd)).isChain

theorem normal_eq (h : ∀ c ∈ s, IsDecimalChar c) : normal vars s = s := by
  rw [hvars.shielded.normal_eq_strip (written hvars he h)]
  refine strip_of_unwrap?_eq_none (unwrap?_eq_none ?_)
  rintro inner rfl
  exact absurd (h '(' (by simp)) (by unfold IsDecimalChar; decide)

end
end IsDecimalChar

/-- The reader of doubles reads every decimal text, as the double nearest to what it stands for. -/
theorem ofText?_decimal (hm : Mantissa m ds k) (he : Exponent signed e v) :
    Double.ofText? (m ++ e) = some (Decimal.toDouble ⟨natOfDigits ds, v - k⟩) := by
  have hdecimal := ofText?_eq_some_iff.mpr ⟨m, ds, k, signed, e, v, rfl, hm, he, rfl⟩
  obtain ⟨c, t, rfl⟩ := List.exists_cons_of_ne_nil hm.ne_nil
  have hfirst := hm.mem c List.mem_cons_self
  have hword {d : Char} {w : List Char} (hd : ¬ (d.isDigit = true ∨ d = '.')) : c :: t ++ e ≠ d :: w := by
    intro heq
    rw [(List.cons.inj heq).1] at hfirst
    exact hd hfirst
  unfold Double.ofText?
  split
  next heq => exact absurd heq (hword (by decide))
  next =>
    rw [Double.ofUnsignedText?, if_neg (hword (by decide)), if_neg (hword (by decide)), hdecimal]
    rfl

theorem tryParse_literal (hvars : IsPlain vars) (he : 'e' ∉ vars) {x : Float} (hx : Literal s x)
    (hs : ∀ c ∈ s, IsDecimalChar c) : (tryParse vars s).result = .ok (.const x) :=
  Writes.reads hvars ⟨.literal hx, IsDecimalChar.written hvars he hs, fun c hc => (hs c hc).lower⟩

theorem result_parsePart_of_unknown (h : Form.ofText vars (normal vars s) = .unknown) :
    (parsePart vars s).result = .error (.unrecognizedToken (normal vars s)) := by
  rw [parsePart_eq, h]
  rfl

theorem result_parsePart_of_left {r : Split} {err : ParseError}
    (h : Form.ofText vars (normal vars s) = .operation r) (hleft : (parsePart vars r.left).result = .error err) :
    (parsePart vars s).result = .error err := by
  rw [parsePart_eq, h, Attempt.note_bind]
  dsimp only
  rw [Attempt.note_bind]
  exact Attempt.result_bind_eq_error.mpr (.inl hleft)

theorem ofText_mark (vars : List Char) (hm : Mantissa m ds k) : Form.ofText vars (m ++ ['e']) = .unknown := by
  have huncut (t : Tier) : split? t (m ++ ['e']) = none := by
    refine split?_eq_none_iff.mpr (uncut_of_not_isOperator ?_)
    intro c hc
    rcases List.mem_append.mp hc with hc | hc
    · exact (not_isOperator_of_mantissa hm c hc).1
    · obtain rfl := List.mem_singleton.mp hc
      decide
  obtain ⟨c, t, rfl⟩ := List.exists_cons_of_ne_nil hm.ne_nil
  have hfirst := hm.mem c List.mem_cons_self
  have hminus : (c :: t ++ ['e']).head? ≠ some '-' := by
    intro heq
    obtain rfl : c = '-' := by simpa using heq
    exact absurd hfirst (by decide)
  have hword : firstWord (c :: t ++ ['e']) = [] := by
    refine firstWord_eq_nil ?_
    rintro d hd
    obtain rfl : c = d := by simpa using hd
    rcases hfirst with hfirst | rfl
    · exact isNameStart_of_isDigit hfirst
    · decide
  have hslot : Form.slotOfText? vars (c :: t ++ ['e']) = none := by
    cases t <;> rfl
  have hnumber : Form.numberOfText? (c :: t ++ ['e']) = none := by
    rw [Option.eq_none_iff_forall_ne_some]
    intro x hx
    obtain ⟨d, hlast, hd⟩ := ((numberOfText?_eq_some_iff (split?_eq_none_iff.mp (huncut _))).mp hx).last
    rw [List.getLast?_concat, Option.some_inj] at hlast
    subst hlast
    exact absurd hd (by decide)
  rw [Form.ofText, if_neg (by simp), huncut, Form.ofTerm_of_head?_ne hminus, huncut, huncut,
    Form.ofOperand_of_none (by rw [hword]; exact lookup?_nil), hslot, hnumber]

theorem split?_point {op : Op} (hop : op.tier = .additive) (hds : AllDigits ds) :
    split? .additive ((s ++ ['.']) ++ 'e' :: op.symbol :: ds) = some ⟨(s ++ ['.']) ++ ['e'], op, ds⟩ := by
  refine split?_eq_some_iff.mpr ⟨?_, ⟨hop, level_of_digits hds, ?_⟩, ?_⟩
  · simp [Split.whole]
  · have he : isOperator 'e' = false := by decide
    have hpoint : isExponentSign op.symbol ('e' :: '.' :: s.reverse) = false := by
      have : Char.isDigit '.' = false := by decide
      simp [isExponentSign, this]
    simp [isBinaryAfter, he, hpoint]
  · exact uncut_of_not_isOperator fun c hc => (not_isOperator_of_digits hds c hc).1

theorem exists_sign (he : Exponent true e v) :
    ∃ (op : Op) (ds : List Char), op.tier = .additive ∧ AllDigits ds ∧ e = 'e' :: op.symbol :: ds := by
  cases he with
  | plus hds => exact ⟨.add, _, rfl, hds, rfl⟩
  | minus hds => exact ⟨.subtract, _, rfl, hds, rfl⟩

/-- A decimal text whose mantissa ends in a point before a signed exponent is cut at the sign and refused. -/
theorem tryParse_point (hvars : IsPlain vars) (hnot : 'e' ∉ vars) (hm : Mantissa m ds k) (he : Exponent true e v)
    (hpoint : m.getLast? = some '.') :
    (tryParse vars (m ++ e)).result = .error (.unrecognizedToken (m ++ ['e'])) := by
  have hchars : ∀ c ∈ m ++ e, IsDecimalChar c := fun c hc =>
    (List.mem_append.mp hc).elim (isDecimalChar_of_mantissa hm c) (isDecimalChar_of_exponent he c)
  have hleft : ∀ c ∈ m ++ ['e'], IsDecimalChar c := fun c hc =>
    (List.mem_append.mp hc).elim (isDecimalChar_of_mantissa hm c) fun hc =>
      .inr (.inr (.inl (List.mem_singleton.mp hc)))
  rw [result_tryParse, compact_of_isLower fun c hc => (hchars c hc).lower]
  obtain ⟨op, es, hop, hes, rfl⟩ := exists_sign he
  obtain ⟨t, rfl⟩ := List.getLast?_eq_some_iff.mp hpoint
  refine result_parsePart_of_left (r := ⟨(t ++ ['.']) ++ ['e'], op, es⟩) ?_ ?_
  · rw [IsDecimalChar.normal_eq hvars hnot hchars, Form.ofText, if_neg (by simp), split?_point hop hes]
  · have hnormal := IsDecimalChar.normal_eq hvars hnot hleft
    have hform : Form.ofText vars (normal vars ((t ++ ['.']) ++ ['e'])) = .unknown := by
      rw [hnormal, ofText_mark vars hm]
    have hunknown := result_parsePart_of_unknown hform
    rwa [hnormal] at hunknown

/-- The reader of doubles reads every decimal text, and a formula of nothing else is the constant that it reads,
exactly if no point stands between the mantissa and an exponent with a sign. -/
theorem tryParse_decimal_iff (hvars : IsPlain vars) (hnot : 'e' ∉ vars) (hm : Mantissa m ds k)
    (he : Exponent signed e v) :
    ∃ x, Double.ofText? (m ++ e) = some x ∧ x = Decimal.toDouble ⟨natOfDigits ds, v - k⟩ ∧
      ((tryParse vars (m ++ e)).result = .ok (.const x) ↔ (signed = true → m.getLast? ≠ some '.')) ∧
      (signed = true → m.getLast? = some '.' →
        (tryParse vars (m ++ e)).result = .error (.unrecognizedToken (m ++ ['e']))) := by
  refine ⟨_, ofText?_decimal hm he, rfl, ⟨?_, ?_⟩, ?_⟩
  · rintro hread rfl hpoint
    rw [tryParse_point hvars hnot hm he hpoint] at hread
    cases hread
  · intro hpoint
    have hliteral := Literal.mk (.inl rfl) hm he fun hsigned => by
      have hlast := List.getLast?_eq_some_getLast hm.ne_nil
      refine ⟨_, hlast, (hm.mem _ (List.getLast_mem hm.ne_nil)).resolve_right fun hdot => ?_⟩
      exact hpoint hsigned (hdot ▸ hlast)
    exact tryParse_literal hvars hnot hliteral fun c hc =>
      (List.mem_append.mp hc).elim (isDecimalChar_of_mantissa hm c) (isDecimalChar_of_exponent he c)
  · rintro rfl hpoint
    exact tryParse_point hvars hnot hm he hpoint

theorem tryParse_decimal_iff_milli :
    IsPlain ['x'] ∧ 'e' ∉ ['x'] ∧ Mantissa ['2', '.', '5'] ['2', '5'] 1 ∧ Exponent true ['e', '-', '3'] (-3) ∧
      Double.ofText? "2.5e-3".toList = some 0.0025 ∧
      (tryParse ['x'] "2.5e-3".toList).result = .ok (.const 0.0025) := by
  have hvars : IsPlain ['x'] := by decide
  have hnot : 'e' ∉ ['x'] := by decide
  have hm : Mantissa ['2', '.', '5'] ['2', '5'] 1 :=
    @Mantissa.point ['2'] ['5'] (by simp [AllDigits]) (by simp [AllDigits]) (by simp)
  have he : Exponent true ['e', '-', '3'] (-3) :=
    @Exponent.minus ['3'] (by simp [AllDigits]) (by simp)
  obtain ⟨x, htext, hx, hread, -⟩ := tryParse_decimal_iff hvars hnot hm he
  obtain rfl : x = 0.0025 := hx.trans (by decide +kernel)
  exact ⟨hvars, hnot, hm, he, htext, hread.mpr fun _ => by decide⟩

/-- The reader of doubles takes a point before a signed exponent. -/
theorem tryParse_decimal_point :
    IsPlain ['x'] ∧ 'e' ∉ ['x'] ∧ Mantissa ['2', '.'] ['2'] 0 ∧ Exponent true ['e', '-', '3'] (-3) ∧
      Double.ofText? "2.e-3".toList = some 0.002 ∧
      (tryParse ['x'] "2.e-3".toList).result = .error (.unrecognizedToken "2.e".toList) := by
  have hm : Mantissa ['2', '.'] ['2'] 0 :=
    @Mantissa.point ['2'] [] (by simp [AllDigits]) (by simp [AllDigits]) (by simp)
  have he : Exponent true ['e', '-', '3'] (-3) :=
    @Exponent.minus ['3'] (by simp [AllDigits]) (by simp)
  exact ⟨by decide, by decide, hm, he, by decide +kernel, by decide +kernel⟩

end PlotFormula.Grammar
