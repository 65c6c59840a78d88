import PlotFormula.Proofs.Expr.Evaluation
import PlotFormula.Proofs.Grammar.WellFormed

/-! # Numeric formulas

In a formula over the empty table every letter belongs to the name of a function or is the mark of an exponent.
The names are masked, so a table without `e` finds no variable in the formula: the same products are written
over it, and the same tree is read.
-/
namespace PlotFormula.Grammar
variable {vars s t : List Char} {p : Phrase} {a : Expr Float}

theorem isPlain_nil : IsPlain [] := by decide

/-- No star stands directly after an `x`, which implies a product before a number in every table. -/
def NoStarAfterX (s : List Char) : Prop := s.IsChain fun c d => c = 'x' → d ≠ '*'

instance decidableNoStarAfterX (s : List Char) : Decidable (NoStarAfterX s) :=
  inferInstanceAs (Decidable (List.IsChain _ s))

/-- A text in which the mask leaves nothing in sight but reserved characters and the marks of exponents. -/
structure Numeric (s : List Char) : Prop where
  visible : ∀ c ∈ maskNames s, isReserved c = true ∨ c = 'e'
  noStar : NoStarAfterX s

namespace Numeric

theorem nil : Numeric [] := ⟨by simp, .nil⟩

theorem append_cons {d : Char} (hs : Numeric s) (ht : Numeric t) (hwords : EndsWords d)
    (hd : isReserved d = true) (hlast : s.getLast? = some 'x' → d ≠ '*') : Numeric (s ++ d :: t) := by
  have hx : d ≠ 'x' := by
    rintro rfl
    exact absurd hwords (by decide)
  have hafter : NoStarAfterX (d :: t) := List.isChain_cons.mpr ⟨fun _ _ h => absurd h hx, ht.noStar⟩
  refine ⟨?_, List.isChain_append.mpr ⟨hs.noStar, hafter, ?_⟩⟩
  · rw [hwords.maskNames_append, hwords.maskNames_cons]
    intro c hc
    rcases List.mem_append.mp hc with hc | hc
    · exact hs.visible c hc
    · rcases List.mem_cons.mp hc with rfl | hc
      · exact .inl hd
      · exact ht.visible c hc
  · rintro c hc d' hd' rfl
    obtain rfl : d = d' := by simpa using hd'
    exact hlast hc

theorem cons {d : Char} (ht : Numeric t) (hwords : EndsWords d) (hd : isReserved d = true) :
    Numeric (d :: t) := nil.append_cons ht hwords hd (by simp)

theorem parens (hs : Numeric s) : Numeric ('(' :: s ++ [')']) :=
  (hs.append_cons nil endsWords_close (by decide) fun _ => by decide).cons endsWords_open (by decide)

theorem joinArguments {ps : List (List Char)} (h : ∀ q ∈ ps, Numeric q) : Numeric (joinArguments ps) := by
  match ps with
  | [] => exact nil
  | [q] => exact h q (List.mem_singleton_self q)
  | q :: r :: ps =>
    obtain ⟨hq, hps⟩ := List.forall_mem_cons.mp h
    exact hq.append_cons (joinArguments hps) endsWords_comma (by decide) fun _ => by decide

theorem name (f : Func) : Numeric f.name := by
  refine ⟨?_, by cases f <;> decide⟩
  rw [maskNames_name]
  intro c hc
  obtain rfl := List.eq_of_mem_replicate hc
  exact .inl (by decide)

theorem literal {x : Float} (h : Literal s x) : Numeric s := by
  have hx : 'x' ∉ s := fun hx => absurd (h.mem 'x' hx) (by decide)
  refine ⟨?_, (List.pairwise_of_forall_mem_list ?_).isChain⟩
  · intro c hc
    rw [maskNames_eq_maskWith] at hc
    rcases mem_maskWith hc with rfl | hc
    · exact .inl (by decide)
    · rcases h.mem c hc with hc | rfl | rfl | rfl | rfl
      · exact .inl (by simp [isReserved, hc])
      · exact .inl (by decide)
      · exact .inr rfl
      · exact .inl (by decide)
      · exact .inl (by decide)
  · rintro c hc d - rfl
    exact absurd hc hx

end Numeric

theorem Derives.getLast?_ne_x (h : Derives [] p s a) : s.getLast? ≠ some 'x' := by
  have hclose (u : List Char) : (u ++ [')']).getLast? ≠ some 'x' := by simp
  have hafter {d : Char} {l r : List Char} (hd : d ≠ 'x') (hr : r.getLast? ≠ some 'x') :
      (l ++ d :: r).getLast? ≠ some 'x' := by
    cases r with
    | nil => simpa using hd
    | cons c r => simpa using hr
  induction h with
  | @operation t op l r a b ht hl hr ihl ihr => exact hafter (by cases op <;> decide) ihr
  | @negation t s a h ih => exact hafter (l := []) (by decide) ih
  | base hp h ih => exact ih
  | group => exact hclose _
  | @name f hf =>
    revert hf
    cases f <;> decide
  | call =>
    rw [← List.append_assoc]
    exact hclose _
  | slot hc hi => simp at hi
  | literal h =>
    intro hlast
    exact absurd (h.mem 'x' (List.mem_of_getLast? hlast)) (by decide)

theorem Derives.numeric (h : Derives [] p s a) : Numeric s := by
  induction h with
  | @operation t op l r a b ht hl hr ihl ihr =>
    refine ihl.append_cons ihr (endsWords_symbol op) ?_ fun hlast => absurd hlast hl.getLast?_ne_x
    cases op <;> decide
  | negation h ih => exact ih.cons (endsWords_symbol .subtract) (by decide)
  | base hp h ih => exact ih
  | group h ih => exact ih.parens
  | name => exact .name _
  | @call f args hf h ih =>
    have hargs : Numeric (Grammar.joinArguments (args.map Prod.fst)) := Numeric.joinArguments fun q hq => by
      obtain ⟨arg, harg, rfl⟩ := List.mem_map.mp hq
      exact ih arg harg
    have hclose := hargs.append_cons .nil endsWords_close (by decide) fun _ => by decide
    exact (Numeric.name f).append_cons hclose endsWords_open (by decide) fun _ => by decide
  | slot hc hi => simp at hi
  | literal h => exact .literal h

theorem Derives.mono {vars' : List Char} (hslot : ∀ c i, vars.idxOf? c = some i → vars'.idxOf? c = some i)
    (h : Derives vars p s a) : Derives vars' p s a := by
  induction h with
  | operation ht _ _ ihl ihr => exact .operation ht ihl ihr
  | negation _ ih => exact .negation ih
  | base hp _ ih => exact .base hp ih
  | group _ ih => exact .group ih
  | name hf => exact .name hf
  | call hf _ ih => exact .call hf ih
  | slot hc hi => exact .slot hc (hslot _ _ hi)
  | literal h => exact .literal h

theorem endsWords_of_impliesProduct {c d : Char} (h : impliesProduct [] c d = true) (hx : c ≠ 'x') :
    EndsWords c ∨ EndsWords d := by
  have hvariable (e : Char) : isVariable [] e = false := isVariable_eq_false List.not_mem_nil
  simp only [impliesProduct, hvariable, Bool.or_false, Bool.or_eq_true, Bool.and_eq_true, beq_iff_eq] at h
  rcases h with (⟨-, rfl⟩ | ⟨-, rfl | rfl⟩) | ⟨rfl, -⟩
  · exact .inr endsWords_open
  · exact .inl endsWords_close
  · exact absurd rfl hx
  · exact .inl endsWords_close

/-- A star that no `x` stands before cuts no word in two. -/
theorem takeWhile_writeWith_nil {inside : Bool} (h : NoStarAfterX (writeWith [] inside s)) :
    (writeWith [] inside s).takeWhile isNamePart = s.takeWhile isNamePart := by
  induction s generalizing inside with
  | nil => rfl
  | cons c s ih =>
    cases s with
    | nil => rfl
    | cons d s =>
      rw [writeWith_cons_cons] at h ⊢
      split at h
      next hproduct =>
        have hx : c ≠ 'x' := fun hx => (List.isChain_cons_cons.mp h).1 hx rfl
        have hcd := isPlain_nil.shielded.impliesProduct_of_veil hproduct
        rw [if_pos hproduct]
        rcases endsWords_of_impliesProduct hcd hx with hwords | hwords
        · rw [EndsWords] at hwords
          simp [hwords]
        · rw [EndsWords] at hwords
          simp [List.takeWhile_cons, hwords, not_isNamePart_star]
      next hproduct =>
        rw [if_neg hproduct, List.takeWhile_cons, List.takeWhile_cons, ih (List.isChain_cons.mp h).2]

theorem hides_writeWith_nil {inside inside' : Bool} (h : NoStarAfterX (writeWith [] inside s)) :
    hides inside' (writeWith [] inside s) = hides inside' s := by
  cases s with
  | nil => rfl
  | cons c s =>
    have htake := takeWhile_writeWith_nil h
    obtain ⟨t, ht⟩ := writeWith_cons [] inside c s
    rw [ht] at htake ⊢
    have hword : firstWord (c :: t) = firstWord (c :: s) := by
      rw [firstWord, firstWord]
      split
      next hc =>
        have hpart := isNamePart_of_isNameStart hc
        rwa [List.takeWhile_cons_of_pos hpart, List.takeWhile_cons_of_pos hpart] at htake
      next => rfl
    rw [hides, hides, hword]

theorem mem_maskWith_writeWith_nil {inside : Bool} (h : NoStarAfterX (writeWith [] inside s)) {e : Char}
    (he : e ∈ maskWith inside s) : e ∈ maskWith inside (writeWith [] inside s) := by
  induction s generalizing inside with
  | nil => exact he
  | cons c s ih =>
    cases s with
    | nil => exact he
    | cons d s =>
      have hhides : hides inside (writeWith [] inside (c :: d :: s)) = hides inside (c :: d :: s) :=
        hides_writeWith_nil h
      have hstar : EndsWords '*' := by decide
      rw [maskWith_cons, List.mem_cons, veil] at he
      rw [writeWith_cons_cons] at h hhides ⊢
      split at h
      next hproduct =>
        have hvisible := isPlain_nil.shielded.hides_of_impliesProduct hproduct
        have hrest := (List.isChain_cons.mp (List.isChain_cons.mp h).2).2
        rw [if_pos hproduct, hvisible] at hhides
        rw [hvisible] at he hrest
        rw [if_pos hproduct, hvisible, maskWith_cons, veil, hhides, hstar.maskWith_cons, List.mem_cons, List.mem_cons]
        exact he.imp_right fun he => .inr (ih hrest he)
      next hproduct =>
        rw [if_neg hproduct] at hhides
        rw [if_neg hproduct, maskWith_cons, veil, hhides, List.mem_cons]
        exact he.imp_right (ih (List.isChain_cons.mp h).2)

theorem Reads.visible (hsmall : IsSmall s) (h : Reads [] s a) {c : Char} (hc : c ∈ maskNames s) :
    isReserved c = true ∨ c = 'e' := by
  have hnumeric := ((reads_iff_derives_writeProducts isPlain_nil hsmall).mp h).numeric
  apply hnumeric.visible
  rw [maskNames_eq_maskWith] at hc ⊢
  rw [writeProducts_eq_writeWith] at hnumeric ⊢
  exact mem_maskWith_writeWith_nil hnumeric.noStar hc

/-- No visible character is a variable of the table, so the products are those of the empty table. -/
theorem Reads.of_nil (hvars : IsPlain vars) (he : 'e' ∉ vars) (hsmall : IsSmall s) (h : Reads [] s a) :
    Reads vars s a := by
  have hproducts : writeProducts vars s = writeProducts [] s := by
    refine writeProducts_congr fun c hc => ?_
    have hc : c ∉ vars := by
      rcases h.visible hsmall hc with hreserved | rfl
      · exact hvars.not_mem hreserved
      · exact he
    rw [isVariable_eq_false hc, isVariable_eq_false List.not_mem_nil]
  have hderives := (reads_iff_derives_writeProducts isPlain_nil hsmall).mp h
  rw [reads_iff_derives_writeProducts hvars hsmall, hproducts]
  exact hderives.mono (by simp)

theorem exists_of_readNumber {text : List Char} {v : Float} (h : (readNumber text).result = .ok v) :
    ∃ a, (tryParse [] text).result = .ok a ∧ a.eval [] = v := by
  unfold readNumber at h
  dsimp only at h
  split at h
  next a ha =>
    dsimp only at h
    split at h
    · exact ⟨a, ha, Except.ok.inj h⟩
    · simp at h
  next => simp at h

theorem eval_eq_of_wellFormed_nil (h : a.WellFormed []) (p : List Float) : a.eval p = a.eval [] := by
  refine Expr.eval_congr fun slot hslot => ?_
  obtain ⟨c, hc, -⟩ := h.exists_entry hslot
  simp at hc

/-- Variables do not change what a formula without variables means. It reads as the same tree over every table
without `e`, and the number that a text is read as is the value of its formula at every point. -/
theorem tryParse_of_numeric (hvars : IsPlain vars) (he : 'e' ∉ vars) (text : List Char) :
    (∀ a, (tryParse [] text).result = .ok a → (tryParse vars text).result = .ok a) ∧
    ∀ v, (readNumber text).result = .ok v → ∀ p : List Float, (parse vars text).result.eval p = v := by
  have htree : ∀ a, (tryParse [] text).result = .ok a → (tryParse vars text).result = .ok a :=
    fun a h => Reads.of_nil hvars he (isSmall_compact text) h
  refine ⟨htree, fun v hv p => ?_⟩
  obtain ⟨a, ha, rfl⟩ := exists_of_readNumber hv
  rw [result_parse_of_ok (htree a ha), eval_eq_of_wellFormed_nil (wellFormed_of_tryParse ha) p]

theorem tryParse_of_numeric_max :
    IsPlain ['m', 'a', 'x'] ∧ 'e' ∉ ['m', 'a', 'x'] ∧
      (tryParse ['m', 'a', 'x'] "Max(2(3), 1e1)".toList).result =
        .ok (.call .max [.binary .multiply (.const 2) (.const 3), .const 10]) ∧
      (readNumber "Max(2(3), 1e1)".toList).result = .ok 10 ∧
      (parse ['m', 'a', 'x'] "Max(2(3), 1e1)".toList).result.eval [7] = 10 := by
  have hvars : IsPlain ['m', 'a', 'x'] := by decide
  have he : 'e' ∉ ['m', 'a', 'x'] := by decide
  have hok : (tryParse [] "Max(2(3), 1e1)".toList).result =
      .ok (.call .max [.binary .multiply (.const 2) (.const 3), .const 10]) := by decide +kernel
  have hvalue : (Expr.call .max [.binary .multiply (.const 2) (.const 3), .const 10]).eval [] = (10 : Float) := by
    decide +kernel
  have hfinite : (10 : Float).isFinite = true := by decide +kernel
  have hnumber : (readNumber "Max(2(3), 1e1)".toList).result = .ok 10 := by
    rw [readNumber, hok]
    dsimp only
    rw [hvalue, if_pos hfinite]
  obtain ⟨htree, hpoints⟩ := tryParse_of_numeric hvars he "Max(2(3), 1e1)".toList
  exact ⟨hvars, he, htree _ hok, hnumber, hpoints 10 hnumber [7]⟩

end PlotFormula.Grammar
