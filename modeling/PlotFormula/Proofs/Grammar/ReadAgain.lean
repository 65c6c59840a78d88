import PlotFormula.Proofs.Grammar.Numerals
import PlotFormula.Proofs.Grammar.RoundTrip
import PlotFormula.Proofs.Grammar.WellFormed

/-! # Reading again

What is read can be written in the same names. If its constants are finite, the written formula is read as
the same tree. A literal too large for a double is read as infinity, which is written as a word: it has no
digits, so the written formula has too few numerals for the constants of the tree and is never read as it.
-/
namespace PlotFormula
namespace Expr

theorem beqArgs_iff {α : Type} [BEq α] {as bs : List (Expr α)} :
    beqArgs as bs = true ↔ List.Forall₂ (fun a b => a.beq b = true) as bs := by
  induction as generalizing bs with
  | nil => cases bs <;> simp [beqArgs]
  | cons a as ih => cases bs <;> simp [beqArgs, ih]

theorem length_constants_of_beq {α : Type} [BEq α] {a b : Expr α} (h : a.beq b = true) :
    a.constants.length = b.constants.length := by
  induction a generalizing b with
  | const | var | invalid => cases b <;> simp_all [beq, constants]
  | neg a ih =>
    cases b with
    | neg b =>
      simp only [beq] at h
      simp only [constants, ih h]
    | _ => simp [beq] at h
  | binary op a₁ a₂ ih₁ ih₂ =>
    cases b with
    | binary op' b₁ b₂ =>
      simp only [beq, Bool.and_eq_true] at h
      simp only [constants, List.length_append, ih₁ h.1.2, ih₂ h.2]
    | _ => simp [beq] at h
  | call f as ih =>
    cases b with
    | call g bs =>
      simp only [beq, Bool.and_eq_true, beqArgs_iff] at h
      obtain ⟨-, hargs⟩ := h
      simp only [constants, constantsArgs_eq]
      induction hargs with
      | nil => rfl
      | @cons a b as bs hab _ ihs =>
        have hfirst := ih a List.mem_cons_self hab
        have hrest := ihs fun c hc => ih c (List.mem_cons_of_mem a hc)
        simp only [List.flatMap_cons, List.length_append, hfirst, hrest]
    | _ => simp [beq] at h

namespace WellFormed
variable {vars : List Char} {a : Expr Float}

theorem beq_self (h : a.WellFormed vars) : (a == a) = true := by
  show a.beq a = true
  induction h with
  | const hx => exact hx.beq_self
  | var => simp [beq]
  | neg h ih => exact ih
  | binary ha hb iha ihb => simp [beq, iha, ihb]
  | call hf h ih => simpa [beq, beqArgs_iff, List.forall₂_same] using ih

theorem separateSigns_eq (h : a.WellFormed vars) : a.separateSigns = a := by
  induction h with
  | const hx => rw [separateSigns, if_neg hx.not_lt]
  | var => rfl
  | neg h ih => rw [separateSigns, ih]
  | binary ha hb iha ihb => rw [separateSigns, iha, ihb]
  | call hf h ih => rw [separateSigns, separateSignsArgs_eq, List.map_congr_left ih, List.map_id']

theorem isLower_of_dependsOn (h : a.WellFormed vars) {slot : Nat} {c : Char}
    (hslot : a.dependsOn slot = true) (hc : vars[slot]? = some c) : Text.IsLower c := by
  obtain ⟨d, hd, hlower⟩ := h.exists_entry hslot
  obtain rfl := Option.some.inj (hc.symm.trans hd)
  exact hlower

theorem writable (h : a.WellFormed vars) (hfinite : ∀ x ∈ a.constants, x.isFinite = true) :
    a.Writable vars := by
  induction h with
  | const hx => exact .const (hfinite _ (List.mem_singleton_self _)) hx.ne_negative_zero
  | var hc hfirst he => exact .var hc he hfirst
  | neg h ih => exact .neg (ih hfinite)
  | binary ha hb iha ihb =>
    obtain ⟨hleft, hright⟩ := List.forall_mem_append.mp hfinite
    exact .binary (iha hleft) (ihb hright)
  | call hf h ih =>
    rw [constants, constantsArgs_eq] at hfinite
    exact .call hf fun a ha => ih a ha fun x hx => hfinite x (List.mem_flatMap.mpr ⟨a, ha, hx⟩)

end WellFormed
end Expr

namespace Grammar
variable {vars : List Char} {a : Expr Float}

section
variable (hvars : IsPlain vars)
include hvars

theorem lower_render (h : a.WellFormed vars) : ∀ c ∈ a.render vars, Text.IsLower c ∧ c ≠ ' ' := by
  induction h with
  | @const x hx =>
    rw [Expr.render, Expr.constText, if_neg hx.not_lt]
    rcases hx.positional_cases with ⟨-, -, hdigits⟩ | ⟨-, htext⟩
    · exact fun c hc => lower_of_digit (hdigits c hc)
    · rw [htext]
      simp only [List.forall_mem_cons]
      refine ⟨?_, ?_, ?_, by simp⟩ <;> exact lower_of_ascii (by decide) (by decide) (by decide)
  | @var slot c hc _ _ hlower =>
    rw [Expr.render, Expr.slotText, hc]
    refine List.forall_mem_singleton.mpr ⟨hlower, ?_⟩
    rintro rfl
    exact hvars.not_mem (by decide) (List.mem_of_getElem? hc)
  | neg h ih =>
    rw [render_neg]
    exact lower_parens (List.forall_mem_cons.mpr ⟨lower_symbol .subtract, ih⟩)
  | @binary op a b ha hb iha ihb =>
    rw [render_binary]
    exact lower_operation op iha ihb
  | @call f args hf h ih =>
    rw [render_call]
    exact lower_call f (List.forall_mem_map.mpr ih)

theorem numerals_render (h : a.WellFormed vars) :
    numerals (a.render vars) = a.constants.countP Float.isFinite := by
  induction h with
  | @const x hx =>
    rw [Expr.render, Expr.constText, if_neg hx.not_lt, Expr.constants, List.countP_singleton]
    rcases hx.positional_cases with ⟨hfinite, hne, hdigits⟩ | ⟨hfinite, htext⟩
    · rw [hfinite]
      exact numerals_of_digits hne fun c hc => isNumeral_iff.mpr (hdigits c hc)
    · rw [hfinite, htext]
      decide
  | @var slot c hc =>
    rw [Expr.render, Expr.slotText, hc]
    refine numerals_eq_zero (List.forall_mem_singleton.mpr (Bool.eq_false_iff.mpr fun hnumeral => ?_))
    refine hvars.not_mem ?_ (List.mem_of_getElem? hc)
    rcases isNumeral_iff.mp hnumeral with hdigit | rfl
    · simp [isReserved, hdigit]
    · decide
  | neg h ih =>
    rw [render_neg, parens, numerals_parens, numerals_cons (by decide), ih, Expr.constants]
  | @binary op a b ha hb iha ihb =>
    rw [render_binary, parens, numerals_parens, numerals_append (isNumeral_symbol op), iha, ihb,
      Expr.constants, List.countP_append]
  | @call f args hf h ih =>
    rw [render_call, parens, numerals_call, numerals_joinArguments, List.map_map, Expr.constants,
      Expr.constantsArgs_eq, List.countP_flatMap]
    exact congrArg List.sum (List.map_congr_left ih)

theorem tryParse_render_of_finite (h : a.WellFormed vars) (hfinite : ∀ x ∈ a.constants, x.isFinite = true) :
    (tryParse vars (a.render vars)).result = .ok a := by
  have hwrites := writes_render_of_slots hvars (h.writable hfinite) fun _ _ => h.isLower_of_dependsOn
  rw [h.separateSigns_eq] at hwrites
  exact hwrites.reads hvars

/-- An infinite constant leaves fewer numerals than constants. -/
theorem finite_of_tryParse_render {b : Expr Float} (h : a.WellFormed vars)
    (hread : (tryParse vars (a.render vars)).result = .ok b) (hbeq : (b == a) = true) :
    ∀ x ∈ a.constants, x.isFinite = true := by
  have hderives := (tryParse_ok_iff hvars).mp hread
  have hle : a.constants.length ≤ a.constants.countP Float.isFinite := by
    calc a.constants.length = b.constants.length := (Expr.length_constants_of_beq hbeq).symm
      _ ≤ numerals (writeProducts vars (compact (a.render vars))) := hderives.length_constants_le
      _ = numerals (a.render vars) := by
        rw [numerals_writeProducts hvars, compact_of_isLower (lower_render hvars h)]
      _ = a.constants.countP Float.isFinite := numerals_render hvars h
  exact List.countP_eq_length.mp (Nat.le_antisymm List.countP_le_length hle)

/-- What is read can be written and read again exactly if all its constants are finite, and then the very same
tree is read. -/
theorem tryParse_again {text : List Char} (h : (tryParse vars text).result = .ok a) :
    ((∃ b, (tryParse vars (a.render vars)).result = .ok b ∧ (b == a) = true) ↔
        ∀ x ∈ a.constants, x.isFinite = true) ∧
      ((∀ x ∈ a.constants, x.isFinite = true) → (tryParse vars (a.render vars)).result = .ok a) := by
  have ha := wellFormed_of_tryParse h
  refine ⟨⟨?_, fun hfinite => ?_⟩, tryParse_render_of_finite hvars ha⟩
  · rintro ⟨b, hread, hbeq⟩
    exact finite_of_tryParse_render hvars ha hread hbeq
  · exact ⟨a, tryParse_render_of_finite hvars ha hfinite, ha.beq_self⟩

end

theorem tryParse_again_exponent :
    IsPlain ['x'] ∧
      (tryParse ['x'] "2.5e+2X - .5".toList).result =
        .ok (.binary .subtract (.binary .multiply (.const 250) (.var 0)) (.const 0.5)) ∧
      (tryParse ['x'] "((250*x)-0.5)".toList).result =
        .ok (.binary .subtract (.binary .multiply (.const 250) (.var 0)) (.const 0.5)) := by
  have hplain : IsPlain ['x'] := by decide
  have hread : (tryParse ['x'] "2.5e+2X - .5".toList).result =
      .ok (.binary .subtract (.binary .multiply (.const 250) (.var 0)) (.const 0.5)) := by decide +kernel
  have htext : Expr.render ['x'] (.binary .subtract (.binary .multiply (.const 250) (.var 0)) (.const 0.5)) =
      "((250*x)-0.5)".toList := by decide +kernel
  have hfinite : ∀ x ∈ [(250 : Float), 0.5], x.isFinite = true := by decide +kernel
  have hagain := (tryParse_again hplain hread).2 hfinite
  rw [htext] at hagain
  exact ⟨hplain, hread, hagain⟩

/-- The literal is larger than every double, and what is written for it is no literal. -/
theorem tryParse_infinite_literal :
    IsPlain ['x', 'y'] ∧ (tryParse ['x', 'y'] "1e400".toList).result = .ok (.const (1 / 0)) ∧
      Expr.render ['x', 'y'] (.const (1 / 0)) = "inf".toList ∧
      (tryParse ['x', 'y'] "inf".toList).result = .error (.unrecognizedToken "inf".toList) := by
  decide +kernel

end Grammar
end PlotFormula
