import PlotFormula.Grammar.Arguments

/-! # Levels of parentheses

A text opens some parentheses and closes some. What can stand between the parentheses of a call closes
exactly what it opens, in the right order, and has no comma outside its own parentheses; a list of such
texts is recovered from the texts joined with commas.
-/
namespace PlotFormula.Grammar

/-- How many parentheses a text opens without closing them. -/
def level : List Char → Int
  | [] => 0
  | c :: s => bracket c + level s

@[simp] theorem level_nil : level [] = 0 := rfl

@[simp] theorem level_cons (c : Char) (s : List Char) : level (c :: s) = bracket c + level s := rfl

@[simp] theorem level_append (s t : List Char) : level (s ++ t) = level s + level t := by
  induction s with
  | nil => simp
  | cons c s ih => simp only [List.cons_append, level_cons, ih]; omega

@[simp] theorem bracket_open : bracket '(' = 1 := rfl

@[simp] theorem bracket_close : bracket ')' = -1 := rfl

theorem bracket_of_ne {c : Char} (h₁ : c ≠ '(') (h₂ : c ≠ ')') : bracket c = 0 := by
  simp [bracket, h₁, h₂]

theorem natAbs_bracket_le (c : Char) : (bracket c).natAbs ≤ if bracket c ≠ 0 then 1 else 0 := by
  unfold bracket
  split
  · decide
  · split <;> decide

theorem natAbs_level_le (s : List Char) : (level s).natAbs ≤ s.countP (bracket · ≠ 0) := by
  induction s with
  | nil => exact Nat.le_refl 0
  | cons c s ih =>
    have hc := natAbs_bracket_le c
    rw [level_cons, List.countP_cons]
    simp only [decide_eq_true_eq]
    omega

/-- No level that is counted over a part of a text exceeds the number of the text's parentheses. -/
theorem natAbs_level_le_of_isInfix {t s : List Char} (h : t <:+: s) :
    (level t).natAbs ≤ s.countP (bracket · ≠ 0) :=
  Nat.le_trans (natAbs_level_le t) h.sublist.countP_le

theorem level_eq_zero {s : List Char} (h : ∀ c ∈ s, bracket c = 0) : level s = 0 := by
  induction s with
  | nil => rfl
  | cons c s ih =>
    rw [level_cons, h c (List.mem_cons_self ..), ih fun d hd => h d (List.mem_cons_of_mem _ hd)]
    rfl

theorem append_eq_append_cons {u v l r : List Char} {c : Char} (h : u ++ v = l ++ c :: r) :
    (∃ m, u = l ++ c :: m ∧ r = m ++ v) ∨ (∃ m, l = u ++ m ∧ v = m ++ c :: r) := by
  rcases List.append_eq_append_iff.mp h with ⟨m, hl, hv⟩ | ⟨m, hu, hr⟩
  · exact .inr ⟨m, hl, hv⟩
  · cases m with
    | nil => exact .inr ⟨[], by simpa using hu.symm, by simpa using hr.symm⟩
    | cons d m =>
      obtain ⟨rfl, rfl⟩ := List.cons.inj hr
      exact .inl ⟨m, hu, rfl⟩

theorem getElem?_length (l r : List Char) (c : Char) : (l ++ c :: r)[l.length]? = some c := by
  rw [List.getElem?_append_right (Nat.le_refl _), Nat.sub_self]
  rfl

/-- Closes exactly what it opens, and nothing before it is opened. -/
structure Nested (s : List Char) : Prop where
  level_eq : level s = 0
  prefix_nonneg : ∀ l c r, s = l ++ c :: r → 0 ≤ level l

/-- Nested, without a comma outside its parentheses. -/
structure Closed (s : List Char) : Prop extends Nested s where
  outside : ∀ l r, s = l ++ ',' :: r → level l ≠ 0

theorem nested_nil : Nested [] := ⟨rfl, by simp⟩

theorem nested_singleton {c : Char} (hc : bracket c = 0) : Nested [c] := by
  refine ⟨by simp [hc], ?_⟩
  intro l d r h
  cases l with
  | nil => simp
  | cons e l => simp at h

theorem Nested.append {s t : List Char} (hs : Nested s) (ht : Nested t) : Nested (s ++ t) := by
  refine ⟨by rw [level_append, hs.level_eq, ht.level_eq]; rfl, ?_⟩
  intro l c r h
  rcases append_eq_append_cons h with ⟨m, hm, -⟩ | ⟨m, rfl, hm⟩
  · exact hs.prefix_nonneg l c m hm
  · have := ht.prefix_nonneg m c r hm
    rwa [level_append, hs.level_eq, Int.zero_add]

theorem Nested.cons {c : Char} {s : List Char} (hc : bracket c = 0) (hs : Nested s) : Nested (c :: s) :=
  (nested_singleton hc).append hs

theorem Nested.suffix_nonpos {s : List Char} (hs : Nested s) {l r : List Char} (h : s = l ++ r) :
    level r ≤ 0 := by
  have hlevel : level l + level r = 0 := by rw [← level_append, ← h]; exact hs.level_eq
  cases r with
  | nil => simp
  | cons c r =>
    have := hs.prefix_nonneg l c r h
    omega

theorem closed_nil : Closed [] := ⟨nested_nil, by simp⟩

theorem closed_singleton {c : Char} (hc : bracket c = 0) (hcomma : c ≠ ',') : Closed [c] := by
  refine ⟨nested_singleton hc, ?_⟩
  intro l r h
  cases l with
  | nil => simp_all
  | cons e l => simp at h

theorem Closed.append {s t : List Char} (hs : Closed s) (ht : Closed t) : Closed (s ++ t) := by
  refine ⟨hs.toNested.append ht.toNested, ?_⟩
  intro l r h
  rcases append_eq_append_cons h with ⟨m, hm, -⟩ | ⟨m, rfl, hm⟩
  · exact hs.outside l m hm
  · have := ht.outside m r hm
    rwa [level_append, hs.level_eq, Int.zero_add]

theorem Closed.cons {c : Char} {s : List Char} (hc : bracket c = 0) (hcomma : c ≠ ',') (hs : Closed s) :
    Closed (c :: s) :=
  (closed_singleton hc hcomma).append hs

theorem closed_of_forall {s : List Char} (h : ∀ c ∈ s, bracket c = 0 ∧ c ≠ ',') : Closed s := by
  induction s with
  | nil => exact closed_nil
  | cons c s ih =>
    obtain ⟨hc, hs⟩ := List.forall_mem_cons.mp h
    exact (ih hs).cons hc.1 hc.2

theorem Nested.parens {s : List Char} (hs : Nested s) : Closed ('(' :: s ++ [')']) := by
  have inside {l r : List Char} {c : Char} (h : '(' :: s ++ [')'] = l ++ c :: r) (hl : l ≠ []) :
      0 < level l := by
    cases l with
    | nil => exact absurd rfl hl
    | cons d l =>
      obtain ⟨rfl, ht⟩ := List.cons.inj h
      rw [level_cons, bracket_open]
      rcases append_eq_append_cons ht with ⟨m, hm, -⟩ | ⟨m, rfl, hm⟩
      · have := hs.prefix_nonneg l c m hm
        omega
      · cases m with
        | nil => rw [List.append_nil, hs.level_eq]; decide
        | cons e m => simp at hm
  refine ⟨⟨by simp [hs.level_eq], ?_⟩, ?_⟩
  · intro l c r h
    by_cases hl : l = []
    · simp [hl]
    · exact Int.le_of_lt (inside h hl)
  · intro l r h
    by_cases hl : l = []
    · simp [hl] at h
    · exact Int.ne_of_gt (inside h hl)

theorem nested_join {ps : List (List Char)} (h : ∀ p ∈ ps, Closed p) : Nested (joinArguments ps) := by
  match ps with
  | [] => exact nested_nil
  | [p] => exact (h p (by simp)).toNested
  | p :: q :: ps =>
    have ih : Nested (joinArguments (q :: ps)) := nested_join fun r hr => h r (List.mem_cons_of_mem _ hr)
    exact (h p (by simp)).toNested.append (ih.cons rfl)

theorem foldr_consFirst (p q : List Char) (ps : List (List Char)) :
    p.foldr consFirst (q :: ps) = (p ++ q) :: ps := by
  induction p with
  | nil => rfl
  | cons c p ih => rw [List.foldr_cons, ih]; rfl

/-- The commas of a text all stand inside parentheses, when the text is read at level `k`. -/
def CommasInside (k : Int) (p : List Char) : Prop := ∀ l r, p = l ++ ',' :: r → k + level l ≠ 0

/-- Texts that may be told apart by the commas between them, when the first is read at level `k`: no comma
of a text stands outside parentheses, and every text but the last ends outside. -/
def AreArguments (k : Int) : List (List Char) → Prop
  | [] => False
  | [p] => CommasInside k p
  | p :: ps => CommasInside k p ∧ k + level p = 0 ∧ AreArguments 0 ps

theorem commasInside_nil (k : Int) : CommasInside k [] := by
  simp [CommasInside]

theorem CommasInside.cons {k : Int} {c : Char} {p : List Char} (hc : ¬ (c = ',' ∧ k = 0))
    (hp : CommasInside (k + bracket c) p) : CommasInside k (c :: p) := by
  intro l r h
  cases l with
  | nil =>
    obtain ⟨rfl, -⟩ := List.cons.inj h
    simpa using hc
  | cons d l =>
    obtain ⟨rfl, rfl⟩ := List.cons.inj h
    have := hp l r rfl
    rwa [level_cons, ← Int.add_assoc]

theorem splitArgumentsFrom_append {k : Int} {p : List Char} (h : CommasInside k p) (t : List Char) :
    splitArgumentsFrom k (p ++ t) = p.foldr consFirst (splitArgumentsFrom (k + level p) t) := by
  induction p generalizing k with
  | nil => simp
  | cons c p ih =>
    have hc : ¬ (c = ',' ∧ k = 0) := by
      rintro ⟨rfl, rfl⟩
      exact h [] p rfl (by simp)
    have hrest : CommasInside (k + bracket c) p := by
      rintro l r rfl
      have := h (c :: l) r rfl
      rwa [level_cons, ← Int.add_assoc] at this
    rw [List.cons_append, splitArgumentsFrom, if_neg hc, ih hrest, List.foldr_cons, level_cons,
      Int.add_assoc]

theorem areArguments_consFirst {k : Int} {c : Char} {ps : List (List Char)} (hc : ¬ (c = ',' ∧ k = 0))
    (h : AreArguments (k + bracket c) ps) : AreArguments k (consFirst c ps) := by
  match ps with
  | [] => exact absurd h id
  | [p] => exact CommasInside.cons hc h
  | p :: q :: ps =>
    obtain ⟨hp, hlevel, hps⟩ := h
    exact ⟨hp.cons hc, by rwa [level_cons, ← Int.add_assoc], hps⟩

theorem areArguments_splitArgumentsFrom (k : Int) (s : List Char) :
    AreArguments k (splitArgumentsFrom k s) := by
  induction s generalizing k with
  | nil => exact commasInside_nil k
  | cons c s ih =>
    rw [splitArgumentsFrom]
    split
    next hc =>
      obtain ⟨q, qs, hq⟩ := List.exists_cons_of_ne_nil (splitArgumentsFrom_ne_nil 0 s)
      have hrest := ih 0
      rw [hq] at hrest ⊢
      exact ⟨commasInside_nil k, by simp [hc.2], hrest⟩
    next hc => exact areArguments_consFirst hc (ih (k + bracket c))

theorem splitArgumentsFrom_join {k : Int} {ps : List (List Char)} (h : AreArguments k ps) :
    splitArgumentsFrom k (joinArguments ps) = ps := by
  match ps with
  | [] => exact absurd h id
  | [p] =>
    have hsplit := splitArgumentsFrom_append (show CommasInside k p from h) []
    rwa [List.append_nil, splitArgumentsFrom, foldr_consFirst, List.append_nil] at hsplit
  | p :: q :: ps =>
    obtain ⟨hp, hlevel, hps⟩ := h
    have ih : splitArgumentsFrom 0 (joinArguments (q :: ps)) = q :: ps := splitArgumentsFrom_join hps
    have hcomma : splitArgumentsFrom (k + level p) (',' :: joinArguments (q :: ps)) = [] :: q :: ps := by
      rw [hlevel, splitArgumentsFrom, if_pos ⟨rfl, rfl⟩, ih]
    rw [joinArguments, splitArgumentsFrom_append hp, hcomma, foldr_consFirst, List.append_nil]

theorem Closed.commasInside {p : List Char} (h : Closed p) : CommasInside 0 p := by
  intro l r hp
  simpa using h.outside l r hp

theorem areArguments_of_closed {ps : List (List Char)} (hne : ps ≠ []) (h : ∀ p ∈ ps, Closed p) :
    AreArguments 0 ps := by
  match ps with
  | [] => exact absurd rfl hne
  | [p] => exact (h p List.mem_cons_self).commasInside
  | p :: q :: ps =>
    obtain ⟨hp, hps⟩ := List.forall_mem_cons.mp h
    exact ⟨hp.commasInside, by simp [hp.level_eq], areArguments_of_closed (List.cons_ne_nil q ps) hps⟩

theorem argumentTexts_join {ps : List (List Char)} (h : ∀ p ∈ ps, Closed p) (hne : ∀ p ∈ ps, p ≠ []) :
    argumentTexts (joinArguments ps) = ps := by
  cases ps with
  | nil => rfl
  | cons p ps =>
    have hjoin : joinArguments (p :: ps) ≠ [] := by
      cases ps with
      | nil => exact hne p (by simp)
      | cons q ps => simp [joinArguments]
    rw [argumentTexts, if_neg hjoin, splitArguments,
      splitArgumentsFrom_join (areArguments_of_closed (List.cons_ne_nil p ps) h)]

end PlotFormula.Grammar
