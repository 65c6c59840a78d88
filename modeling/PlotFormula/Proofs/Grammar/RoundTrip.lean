import PlotFormula.Expr.Render
import PlotFormula.Proofs.Double.ReadBack
import PlotFormula.Proofs.Grammar.Composition

/-! # Reading what is written

A written formula is an atom of the grammar, it has no product that is not written, and it is in lower case
and without spaces. So it is read as it stands, and what is read is the tree that was written, with a
negation in the place of every negative constant.
-/
namespace PlotFormula
namespace Expr

mutual

/-- The tree with the signs of its constants as negations. -/
def separateSigns : Expr Float → Expr Float
  | const x => if x < 0 then neg (const (-x)) else const x
  | var slot => var slot
  | neg a => neg a.separateSigns
  | binary op a b => binary op a.separateSigns b.separateSigns
  | call f args => call f (separateSignsArgs args)
  | invalid => invalid

def separateSignsArgs : List (Expr Float) → List (Expr Float)
  | [] => []
  | a :: as => a.separateSigns :: separateSignsArgs as

end

theorem separateSignsArgs_eq (args : List (Expr Float)) :
    separateSignsArgs args = args.map separateSigns := by
  induction args with
  | nil => rfl
  | cons a as ih => simp [separateSignsArgs, ih]

/-- The trees that can be written in the names of a table without loss. Constants are finite and not `-0`,
functions have as many arguments as they take, and a slot is the first place of its name, which is not the
name of Euler's number. -/
inductive Writable (names : List Char) : Expr Float → Prop
  | const {x : Float} (hfinite : x.isFinite = true) (hzero : x ≠ -0.0) : Writable names (const x)
  | var {slot : Nat} {c : Char} (hc : names[slot]? = some c) (he : c ≠ 'e') (hfirst : c ∉ names.take slot) :
      Writable names (var slot)
  | neg {a : Expr Float} (h : Writable names a) : Writable names (neg a)
  | binary {op : Op} {a b : Expr Float} (ha : Writable names a) (hb : Writable names b) :
      Writable names (binary op a b)
  | call {f : Func} {args : List (Expr Float)} (hf : f.arity.accepts args.length = true)
      (h : ∀ a ∈ args, Writable names a) : Writable names (call f args)

end Expr

namespace Grammar

/-- A text that is read as the tree wherever it stands. -/
structure Writes (vars s : List Char) (a : Expr Float) : Prop where
  derives : Derives vars .atom s a
  written : Written vars s
  lower : ∀ c ∈ s, Text.IsLower c ∧ c ≠ ' '

theorem lower_parens {s : List Char} (h : ∀ c ∈ s, Text.IsLower c ∧ c ≠ ' ') :
    ∀ c ∈ parens s, Text.IsLower c ∧ c ≠ ' ' := by
  intro c hc
  rw [parens, List.cons_append, List.mem_cons, List.mem_append, List.mem_singleton] at hc
  rcases hc with rfl | hc | rfl
  · exact lower_of_ascii (by decide) (by decide) (by decide)
  · exact h c hc
  · exact lower_of_ascii (by decide) (by decide) (by decide)

theorem lower_operation {l r : List Char} (op : Op) (hl : ∀ c ∈ l, Text.IsLower c ∧ c ≠ ' ')
    (hr : ∀ c ∈ r, Text.IsLower c ∧ c ≠ ' ') :
    ∀ c ∈ parens (l ++ op.symbol :: r), Text.IsLower c ∧ c ≠ ' ' :=
  lower_parens (List.forall_mem_append.mpr ⟨hl, List.forall_mem_cons.mpr ⟨lower_symbol op, hr⟩⟩)

theorem lower_call (f : Func) {ps : List (List Char)} (h : ∀ p ∈ ps, ∀ c ∈ p, Text.IsLower c ∧ c ≠ ' ') :
    ∀ c ∈ f.name ++ parens (joinArguments ps), Text.IsLower c ∧ c ≠ ' ' := by
  refine List.forall_mem_append.mpr ⟨lower_name f, lower_parens ?_⟩
  intro c hc
  rcases eq_or_mem_of_mem_joinArguments hc with rfl | ⟨p, hp, hc⟩
  · exact lower_of_ascii (by decide) (by decide) (by decide)
  · exact h p hp c hc

namespace Writes
variable {vars s : List Char} {a b : Expr Float} (hvars : IsPlain vars)

theorem slot {slot : Nat} {c : Char} (hc : vars[slot]? = some c) (he : c ≠ 'e') (hfirst : c ∉ vars.take slot)
    (hlower : Text.IsLower c ∧ c ≠ ' ') : Writes vars [c] (.var slot) := by
  obtain ⟨hslot, hget⟩ := List.getElem?_eq_some_iff.mp hc
  have hindex : vars.idxOf? c = some slot := by
    refine List.idxOf?_eq_some_iff.mpr ⟨hslot, hget, ?_⟩
    rintro j hj rfl
    exact hfirst (List.mem_take_iff_getElem.mpr ⟨j, by omega, rfl⟩)
  exact ⟨.slot he hindex, written_singleton c, by simpa using hlower⟩

section
include hvars

theorem literal {x : Float} (hx : Double.IsUnsigned x) : Writes vars (Double.positional x) (.const x) := by
  obtain ⟨ds, k, hmantissa, hvalue⟩ := Double.exists_mantissa_positional hx
  refine ⟨?_, hvars.written_of_digits hmantissa.mem, fun c hc => lower_of_digit (hmantissa.mem c hc)⟩
  have hliteral := Literal.mk (.inl rfl) hmantissa .absent (by simp)
  rw [List.nil_append, List.append_nil, Int.zero_sub, hvalue] at hliteral
  exact .literal hliteral

theorem negation (h : Writes vars s a) : Writes vars (parens ('-' :: s)) (.neg a) := by
  have hminus := hvars.separates_symbol .subtract
  refine ⟨.group (.base (by decide) (.negation (h.derives.ofAtom _))), ?_, lower_parens ?_⟩
  · exact hvars.shielded.written_parens.mpr ((written_cons hminus.endsWords hminus.left).mpr h.written)
  · exact List.forall_mem_cons.mpr ⟨lower_symbol .subtract, h.lower⟩

theorem operation {l r : List Char} (op : Op) (hl : Writes vars l a) (hr : Writes vars r b) :
    Writes vars (parens (l ++ op.symbol :: r)) (.binary op a b) := by
  have hsum := (Derives.operation (t := op.tier) rfl (hl.derives.ofAtom _) (hr.derives.ofAtom _)).toSum
  refine ⟨.group hsum, ?_, lower_operation op hl.lower hr.lower⟩
  exact hvars.shielded.written_parens.mpr ((hvars.separates_symbol op).written_append.mpr ⟨hl.written, hr.written⟩)

theorem call {f : Func} {args : List (List Char × Expr Float)} (hf : f.arity.accepts args.length = true)
    (h : ∀ p ∈ args, Writes vars p.1 p.2) :
    Writes vars (f.name ++ parens (joinArguments (args.map Prod.fst))) (.call f (args.map Prod.snd)) := by
  refine ⟨.call hf fun p hp => (h p hp).derives.toSum, ?_, ?_⟩
  · refine (hvars.shielded.written_call f).mpr ((written_joinArguments hvars).mpr ?_)
    exact List.forall_mem_map.mpr fun p hp => (h p hp).written
  · exact lower_call f (List.forall_mem_map.mpr fun p hp => (h p hp).lower)

theorem reads (h : Writes vars s a) : (tryParse vars s).result = .ok a := by
  rw [tryParse_ok_iff hvars, compact_of_isLower h.lower, h.written.writeProducts_eq]
  exact h.derives.toSum

end
end Writes

section Parts
variable (vars : List Char)

theorem render_neg (a : Expr Float) : (Expr.neg a).render vars = parens ('-' :: a.render vars) := rfl

theorem render_binary (op : Op) (a b : Expr Float) :
    (Expr.binary op a b).render vars = parens (a.render vars ++ op.symbol :: b.render vars) := by
  simp [Expr.render, parens]

theorem render_call (f : Func) (args : List (Expr Float)) :
    (Expr.call f args).render vars = f.name ++ parens (joinArguments (args.map (Expr.render vars))) := by
  simp [Expr.render, Expr.renderArgs_eq, parens]

end Parts

/-- A written tree is read as the tree with the signs of its constants as negations, if the names of its slots
are in lower case. -/
theorem writes_render_of_slots {vars : List Char} (hvars : IsPlain vars) {a : Expr Float} (h : a.Writable vars)
    (hlower : ∀ slot c, a.dependsOn slot = true → vars[slot]? = some c → Text.IsLower c) :
    Writes vars (a.render vars) a.separateSigns := by
  induction h with
  | @const x hfinite hzero =>
    rw [Expr.render, Expr.constText, Expr.separateSigns]
    by_cases hx : x < 0
    · obtain ⟨hunsigned, htext⟩ := Double.positional_of_lt hfinite hx
      rw [if_pos hx, if_pos hx, htext]
      exact (Writes.literal hvars hunsigned).negation hvars
    · rw [if_neg hx, if_neg hx]
      exact .literal hvars (Double.isUnsigned_of_not_lt hfinite hzero hx)
  | @var slot c hc he hfirst =>
    rw [Expr.render, Expr.slotText, hc, Expr.separateSigns]
    refine .slot hc he hfirst ⟨hlower slot c (by simp [Expr.dependsOn]) hc, ?_⟩
    rintro rfl
    exact hvars.not_mem (by decide) (List.mem_of_getElem? hc)
  | neg h ih =>
    rw [render_neg, Expr.separateSigns]
    exact (ih hlower).negation hvars
  | @binary op a b ha hb iha ihb =>
    rw [render_binary, Expr.separateSigns]
    refine .operation hvars op (iha fun slot c hslot => hlower slot c ?_)
      (ihb fun slot c hslot => hlower slot c ?_) <;> simp [Expr.dependsOn, hslot]
  | @call f args hf h ih =>
    let parts : List (List Char × Expr Float) := args.map fun a => (a.render vars, a.separateSigns)
    have hparts : ∀ p ∈ parts, Writes vars p.1 p.2 := by
      refine List.forall_mem_map.mpr fun a ha => ih a ha fun slot c hslot => hlower slot c ?_
      rw [Expr.dependsOn, Expr.someDependsOn_eq]
      exact List.any_eq_true.mpr ⟨a, ha, hslot⟩
    have hlength : parts.length = args.length := List.length_map _
    have htext : args.map (Expr.render vars) = parts.map Prod.fst := by
      simp [parts, Function.comp_def]
    have htree : (Expr.call f args).separateSigns = .call f (parts.map Prod.snd) := by
      simp [Expr.separateSigns, Expr.separateSignsArgs_eq, parts, Function.comp_def]
    rw [render_call, htext, htree]
    exact .call hvars (by rw [hlength, hf]) hparts

theorem writes_render {vars : List Char} (hvars : IsPlain vars) (hlower : ∀ c ∈ vars, Text.IsLower c)
    {a : Expr Float} (h : a.Writable vars) : Writes vars (a.render vars) a.separateSigns :=
  writes_render_of_slots hvars h fun _ c _ hc => hlower c (List.mem_of_getElem? hc)

/-- Reading undoes writing, but for the signs of constants, which become negations. -/
theorem tryParse_render {vars : List Char} (hvars : IsPlain vars) (hlower : ∀ c ∈ vars, Text.lowerCase [c] = [c])
    {a : Expr Float} (h : a.Writable vars) :
    (tryParse vars (a.render vars)).result = .ok a.separateSigns := by
  have hsmall : ∀ c ∈ vars, Text.IsLower c := fun c hc => Text.isLower_iff_lowerCase.mpr (hlower c hc)
  exact (writes_render hvars hsmall h).reads hvars

theorem tryParse_render_max :
    IsPlain ['x', 't'] ∧ (∀ c ∈ ['x', 't'], Text.lowerCase [c] = [c]) ∧
      Expr.Writable ['x', 't'] (.call .max [.binary .power (.const (-0.25)) (.var 1), .neg (.call .pi [])]) ∧
      (tryParse ['x', 't'] "max(((-0.25)^t),(-pi()))".toList).result =
        .ok (.call .max [.binary .power (.neg (.const 0.25)) (.var 1), .neg (.call .pi [])]) := by
  have hplain : IsPlain ['x', 't'] := by decide
  have hlower : ∀ c ∈ ['x', 't'], Text.lowerCase [c] = [c] := by
    refine List.forall_mem_cons.mpr ⟨?_, List.forall_mem_singleton.mpr ?_⟩ <;> decide +kernel
  have hconst : Expr.Writable ['x', 't'] (.const (-0.25)) := .const (by decide +kernel) (by decide +kernel)
  have hvar : Expr.Writable ['x', 't'] (.var 1) := .var (c := 't') (by decide) (by decide) (by decide)
  have hpi : Expr.Writable ['x', 't'] (.call .pi []) := .call (by decide) (by simp)
  have htree : Expr.Writable ['x', 't']
      (.call .max [.binary .power (.const (-0.25)) (.var 1), .neg (.call .pi [])]) := by
    refine .call (by decide) ?_
    exact List.forall_mem_cons.mpr ⟨.binary hconst hvar, List.forall_mem_singleton.mpr hpi.neg⟩
  have htext : Expr.render ['x', 't']
      (.call .max [.binary .power (.const (-0.25)) (.var 1), .neg (.call .pi [])]) =
        "max(((-0.25)^t),(-pi()))".toList := by decide +kernel
  have hnegative : (-0.25 : Float) < 0 := by decide +kernel
  have hmagnitude : -(-0.25 : Float) = 0.25 := by decide +kernel
  refine ⟨hplain, hlower, htree, ?_⟩
  have hread := tryParse_render hplain hlower htree
  rw [htext] at hread
  simpa [Expr.separateSigns, Expr.separateSignsArgs, hnegative, hmagnitude] using hread

end Grammar
end PlotFormula
