import PlotFormula.Grammar.Normal

/-! # Weight of a text

The length of a text is no measure for reading it, since writing out a product makes the text longer.
The weight also counts the places where a product could be written. A product that is written takes up
its place, so the normal text weighs no more than the text, and every cut of a text loses weight.
-/
namespace PlotFormula.Grammar

/-- The characters, and the neighbours of which neither is a star. -/
def weight : List Char → Nat
  | [] => 0
  | [_] => 1
  | c :: d :: s => (if c ≠ '*' ∧ d ≠ '*' then 2 else 1) + weight (d :: s)

@[simp] theorem weight_nil : weight [] = 0 := rfl

@[simp] theorem weight_singleton (c : Char) : weight [c] = 1 := rfl

theorem weight_lt_cons (c : Char) (s : List Char) : weight s < weight (c :: s) := by
  cases s with
  | nil => simp
  | cons d s => rw [weight]; split <;> omega

theorem weight_cons_le (c : Char) (s : List Char) : weight (c :: s) ≤ weight s + 2 := by
  cases s with
  | nil => simp
  | cons d s => rw [weight]; split <;> omega

/-- A star that is written between two other characters weighs nothing. -/
theorem weight_star {c d : Char} (s : List Char) (hc : c ≠ '*') (hd : d ≠ '*') :
    weight (c :: '*' :: d :: s) = weight (c :: d :: s) := by
  simp [weight, hc, hd]
  omega

theorem weight_append (s t : List Char) : weight s + weight t ≤ weight (s ++ t) := by
  induction s with
  | nil => simp
  | cons c s ih =>
    cases s with
    | nil => have := weight_lt_cons c t; simp; omega
    | cons d s => simp only [List.cons_append, weight] at ih ⊢; omega

def weights : List (List Char) → Nat
  | [] => 0
  | p :: ps => weight p + 1 + weights ps

@[simp] theorem weights_nil : weights [] = 0 := rfl

@[simp] theorem weights_cons (p : List Char) (ps : List (List Char)) :
    weights (p :: ps) = weight p + 1 + weights ps := rfl

theorem weights_le_join {ps : List (List Char)} (h : ps ≠ []) :
    weights ps ≤ weight (joinArguments ps) + 1 := by
  match ps with
  | [] => exact absurd rfl h
  | [p] => simp [joinArguments]
  | p :: q :: ps =>
    have ih := @weights_le_join (q :: ps) (by simp)
    have hp := weight_append p (',' :: joinArguments (q :: ps))
    have hc := weight_lt_cons ',' (joinArguments (q :: ps))
    simp only [joinArguments]
    rw [weights_cons]
    omega

theorem weights_argumentTexts (s : List Char) : weights (argumentTexts s) ≤ weight s + 1 := by
  unfold argumentTexts
  split
  · simp
  · have h := weights_le_join (splitArgumentsFrom_ne_nil 0 s)
    rwa [join_splitArgumentsFrom] at h

theorem weight_strip (s : List Char) : weight (strip s) ≤ weight s := by
  fun_induction strip s with
  | case1 s inner h ih =>
    have h₁ := weight_append inner [')']
    have h₂ := weight_lt_cons '(' (inner ++ [')'])
    rw [eq_of_unwrap? h]
    omega
  | case2 => exact Nat.le_refl _

theorem isNamePart_of_mem_firstWord {c : Char} {s : List Char} (h : c ∈ firstWord s) : isNamePart c := by
  cases s with
  | nil => simp [firstWord] at h
  | cons d s =>
    rw [firstWord] at h
    split at h
    next hd =>
      rcases List.mem_cons.mp h with rfl | h
      · simp only [isNameStart, Bool.or_eq_true] at hd
        rcases hd with hd | hd <;> simp [isNamePart, Char.isAlphanum, hd]
      · exact List.all_eq_true.mp List.all_takeWhile c h
    next => simp at h

theorem firstWord_prefix (s : List Char) : s.take (firstWord s).length = firstWord s := by
  cases s with
  | nil => rfl
  | cons c s =>
    rw [firstWord]
    split
    · simpa using (List.prefix_iff_eq_take.mp (List.takeWhile_prefix isNamePart)).symm
    · rfl

theorem not_isNamePart_star : isNamePart '*' = false := by decide

theorem mask_eq_star (hidden : Nat) (s : List Char) (h : ∀ c ∈ s.take hidden, isNamePart c) :
    ∀ p ∈ s.zip (maskFrom hidden s), p.1 = '*' → p.2 = '*' := by
  induction s generalizing hidden with
  | nil => simp
  | cons c s ih =>
    intro p hp hstar
    cases hidden with
    | succ n =>
      simp only [List.take_succ_cons, List.forall_mem_cons] at h
      simp only [maskFrom, List.zip_cons_cons, List.mem_cons] at hp
      rcases hp with rfl | hp
      · exact absurd h.1 (by simp only at hstar; simp [hstar, not_isNamePart_star])
      · exact ih n h.2 p hp hstar
    | zero =>
      rw [maskFrom] at hp
      split at hp
      next hw =>
        -- The characters that are still to be hidden are the rest of the word.
        have hlen : firstWord (c :: s) = c :: (firstWord (c :: s)).tail := by
          cases hc : isNameStart c with
          | true => simp [firstWord, hc]
          | false =>
            have hnone : (Func.lookup? []).isSome = false := by decide
            simp [firstWord, hc, hnone] at hw
        have hpre := firstWord_prefix (c :: s)
        have hall : ∀ d ∈ firstWord (c :: s), isNamePart d := fun d => isNamePart_of_mem_firstWord
        simp only [List.zip_cons_cons, List.mem_cons] at hp
        rcases hp with rfl | hp
        · have hc := hall c (by rw [hlen]; simp)
          simp only at hstar
          simp [hstar, not_isNamePart_star] at hc
        · refine ih _ ?_ p hp hstar
          intro d hd
          refine hall d ?_
          rw [← hpre]
          rw [hlen] at hd ⊢
          simpa using Or.inr hd
      next =>
        simp only [List.zip_cons_cons, List.mem_cons] at hp
        rcases hp with rfl | hp
        · exact hstar
        · exact ih 0 (by simp) p hp hstar

theorem impliesProduct_star_left (vars : List Char) (d : Char) : impliesProduct vars '*' d = false := by
  simp [impliesProduct, isFactor, isVariable]

theorem impliesProduct_star_right (vars : List Char) (c : Char) : impliesProduct vars c '*' = false := by
  simp [impliesProduct, isFactor, isVariable]

theorem insertProducts_cons (vars : List Char) (p : Char × Char) (s : List (Char × Char)) :
    insertProducts vars (p :: s) = p.1 :: (insertProducts vars (p :: s)).tail := by
  cases s with
  | nil => rfl
  | cons q s => rw [insertProducts]; split <;> rfl

theorem weight_insertProducts (vars : List Char) (s : List (Char × Char))
    (h : ∀ p ∈ s, p.1 = '*' → p.2 = '*') :
    weight (insertProducts vars s) = weight (s.map Prod.fst) := by
  induction s with
  | nil => rfl
  | cons p s ih =>
    cases s with
    | nil => rfl
    | cons q s =>
      have ih := ih fun r hr => h r (List.mem_cons_of_mem _ hr)
      rw [insertProducts]
      rw [insertProducts_cons] at ih ⊢
      split
      next hprod =>
        have hp : p.1 ≠ '*' := fun hp => by
          rw [h p (by simp) hp, impliesProduct_star_left] at hprod
          simp at hprod
        have hq : q.1 ≠ '*' := fun hq => by
          rw [h q (by simp) hq, impliesProduct_star_right] at hprod
          simp at hprod
        rw [weight_star _ hp hq, weight, ih]
        rfl
      next => rw [weight, ih]; rfl

theorem length_maskFrom (hidden : Nat) (s : List Char) : (maskFrom hidden s).length = s.length := by
  induction s generalizing hidden with
  | nil => rfl
  | cons c s ih =>
    cases hidden with
    | zero => rw [maskFrom]; split <;> simp [ih]
    | succ n => simp [maskFrom, ih]

theorem weight_writeProducts (vars s : List Char) : weight (writeProducts vars s) = weight s := by
  rw [writeProducts, maskNames, weight_insertProducts vars _ (mask_eq_star 0 s (by simp)),
    List.map_fst_zip (by simp [length_maskFrom])]

theorem weight_normal (vars s : List Char) : weight (normal vars s) ≤ weight s := by
  rw [normal, weight_writeProducts]
  exact weight_strip s

end PlotFormula.Grammar
