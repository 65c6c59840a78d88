import PlotFormula.Proofs.Text.LowerCase

/-! # Spaces and the final sigma

A space ends a word, so whether a capital sigma ends one may change when spaces are dropped. It is the only
character whose lower case depends on what is around it. So a text without its spaces has the lower case of the
text, less the spaces, exactly if its capital sigmas end words as before, and in any case up to which of the two
small sigmas is written.
-/
namespace PlotFormula.Text

def dropSpaces (s : List Char) : List Char := s.filter (· ≠ ' ')

@[simp] theorem dropSpaces_nil : dropSpaces [] = [] := rfl

@[simp] theorem dropSpaces_space (s : List Char) : dropSpaces (' ' :: s) = dropSpaces s := rfl

theorem dropSpaces_cons {c : Char} (h : c ≠ ' ') (s : List Char) :
    dropSpaces (c :: s) = c :: dropSpaces s :=
  List.filter_cons_of_pos (by simpa using h)

theorem dropSpaces_append (s t : List Char) : dropSpaces (s ++ t) = dropSpaces s ++ dropSpaces t :=
  List.filter_append s t

theorem dropSpaces_eq_self {s : List Char} (h : ∀ c ∈ s, c ≠ ' ') : dropSpaces s = s :=
  List.filter_eq_self.mpr (by simpa using h)

theorem ne_space_of_mem_dropSpaces {s : List Char} {c : Char} (h : c ∈ dropSpaces s) : c ≠ ' ' := by
  simpa using (List.mem_filter.mp h).2

/-- Whether a capital sigma ends a word, between the text before it, nearest character first, and the text after
it. -/
def isFinal (before after : List Char) : Bool := startsCased before && !startsCased after

/-- Every capital sigma of a text ends a word exactly if it does so without the spaces of the text. -/
def KeepsFinals (s : List Char) : Prop :=
  ∀ l r, s = l ++ 'Σ' :: r → isFinal (dropSpaces l.reverse) (dropSpaces r) = isFinal l.reverse r

def plainSigma (c : Char) : Char := if c = 'ς' then 'σ' else c

theorem lowerCharBetween_sigma (before after : List Char) :
    lowerCharBetween before 'Σ' after = [if isFinal before after then 'ς' else 'σ'] := by
  rw [lowerCharBetween, if_pos rfl, isFinal]
  split <;> rfl

theorem lowerCharBetween_of_ne {c : Char} (h : c ≠ 'Σ') (before after : List Char) :
    lowerCharBetween before c after = lowerChar c :=
  if_neg h

theorem map_plainSigma_lowerCharBetween (before before' : List Char) (c : Char) (after after' : List Char) :
    (lowerCharBetween before c after).map plainSigma = (lowerCharBetween before' c after').map plainSigma := by
  by_cases hc : c = 'Σ'
  · subst hc
    have hplain (b : Bool) : plainSigma (if b then 'ς' else 'σ') = 'σ' := by
      cases b <;> rfl
    simp only [lowerCharBetween_sigma, List.map_cons, List.map_nil, hplain]
  · rw [lowerCharBetween_of_ne hc, lowerCharBetween_of_ne hc]

theorem isLower_space : IsLower ' ' := by
  decide +kernel

theorem ne_space_of_mem_lowerCharBetween {before after : List Char} {c d : Char} (hc : c ≠ ' ')
    (h : d ∈ lowerCharBetween before c after) : d ≠ ' ' := by
  rintro rfl
  by_cases hsigma : c = 'Σ'
  · rw [hsigma, lowerCharBetween_sigma, List.mem_singleton] at h
    split at h <;> exact absurd h (by decide)
  · rw [lowerCharBetween_of_ne hsigma, lowerChar] at h
    split at h
    next => exact absurd h (by decide)
    next =>
      have hspace := List.mem_singleton.mp h
      rcases lowerCodePoint_cases c.toNat lowerCaseRanges with hsame | ⟨-, himage⟩
      · rw [hsame, Char.ofNat_toNat] at hspace
        exact hc hspace.symm
      · have hsmall : lowerCodePoint c.toNat lowerCaseRanges ∈ smalls :=
          List.mem_cons_of_mem _ (List.mem_cons_of_mem _ himage)
        have hcode := toNat_ofNat (isValidChar_smalls _ hsmall)
        rw [← hspace] at hcode
        rw [← hcode] at hsmall
        exact absurd hsmall (by decide +kernel)

theorem dropSpaces_lowerCharBetween {c : Char} (hc : c ≠ ' ') (before after : List Char) :
    dropSpaces (lowerCharBetween before c after) = lowerCharBetween before c after :=
  dropSpaces_eq_self fun _ h => ne_space_of_mem_lowerCharBetween hc h

theorem forall_sigma_cons {P : List Char → List Char → Prop} {before s : List Char} {c : Char} :
    (∀ l r, c :: s = l ++ 'Σ' :: r → P (l.reverse ++ before) r) ↔
      (c = 'Σ' → P before s) ∧ ∀ l r, s = l ++ 'Σ' :: r → P (l.reverse ++ c :: before) r := by
  constructor
  · intro h
    refine ⟨?_, ?_⟩
    · rintro rfl
      exact h [] s rfl
    · rintro l r rfl
      have := h (c :: l) r rfl
      rwa [List.reverse_cons, List.append_assoc, List.singleton_append] at this
  · rintro ⟨hfirst, hrest⟩ l r h
    cases l with
    | nil =>
      obtain ⟨rfl, rfl⟩ := List.cons.inj h
      exact hfirst rfl
    | cons d l =>
      obtain ⟨rfl, rfl⟩ := List.cons.inj h
      rw [List.reverse_cons, List.append_assoc, List.singleton_append]
      exact hrest l r rfl

/-- The induction is on the text, with any text before it. At a space nothing is written on either side, and at a
sigma the two sides write one character each. -/
theorem lowerCaseFrom_dropSpaces_iff (before s : List Char) :
    lowerCaseFrom (dropSpaces before) (dropSpaces s) = dropSpaces (lowerCaseFrom before s) ↔
      ∀ l r, s = l ++ 'Σ' :: r →
        isFinal (dropSpaces (l.reverse ++ before)) (dropSpaces r) = isFinal (l.reverse ++ before) r := by
  induction s generalizing before with
  | nil => simp [lowerCaseFrom]
  | cons c s ih =>
    rw [forall_sigma_cons (P := fun l r => isFinal (dropSpaces l) (dropSpaces r) = isFinal l r), ← ih,
      lowerCaseFrom, dropSpaces_append]
    by_cases hspace : c = ' '
    · subst hspace
      rw [lowerCharBetween_of_isLower isLower_space, dropSpaces_space, dropSpaces_space]
      simp
    · rw [dropSpaces_lowerCharBetween hspace, dropSpaces_cons hspace, dropSpaces_cons hspace, lowerCaseFrom]
      by_cases hsigma : c = 'Σ'
      · subst hsigma
        rw [lowerCharBetween_sigma, lowerCharBetween_sigma, List.singleton_append, List.singleton_append,
          List.cons.injEq]
        -- The two small sigmas differ, so the first characters agree exactly if both are final or neither is.
        refine and_congr ?_ Iff.rfl
        cases isFinal (dropSpaces before) (dropSpaces s) <;> cases isFinal before s <;> decide
      · rw [lowerCharBetween_of_ne hsigma, lowerCharBetween_of_ne hsigma, List.append_cancel_left_eq]
        simp [hsigma]

theorem map_plainSigma_lowerCaseFrom (before s : List Char) :
    (lowerCaseFrom (dropSpaces before) (dropSpaces s)).map plainSigma =
      (dropSpaces (lowerCaseFrom before s)).map plainSigma := by
  induction s generalizing before with
  | nil => rfl
  | cons c s ih =>
    rw [lowerCaseFrom, dropSpaces_append, List.map_append, ← ih]
    by_cases hspace : c = ' '
    · subst hspace
      rw [lowerCharBetween_of_isLower isLower_space, dropSpaces_space, dropSpaces_space]
      rfl
    · rw [dropSpaces_lowerCharBetween hspace, dropSpaces_cons hspace, dropSpaces_cons hspace, lowerCaseFrom,
        List.map_append, map_plainSigma_lowerCharBetween _ before _ _ s]

theorem lowerCase_dropSpaces_iff (s : List Char) :
    lowerCase (dropSpaces s) = dropSpaces (lowerCase s) ↔ KeepsFinals s := by
  have h := lowerCaseFrom_dropSpaces_iff [] s
  simp only [List.append_nil] at h
  exact h

theorem ne_space_of_mem_lowerCaseFrom {before s : List Char} (hs : ∀ c ∈ s, c ≠ ' ') {d : Char}
    (h : d ∈ lowerCaseFrom before s) : d ≠ ' ' := by
  induction s generalizing before with
  | nil => simp [lowerCaseFrom] at h
  | cons c s ih =>
    obtain ⟨hc, hs⟩ := List.forall_mem_cons.mp hs
    rw [lowerCaseFrom] at h
    rcases List.mem_append.mp h with h | h
    · exact ne_space_of_mem_lowerCharBetween hc h
    · exact ih hs h

end PlotFormula.Text
