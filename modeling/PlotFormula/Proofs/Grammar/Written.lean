import Mathlib.Data.List.Chain
import PlotFormula.Proofs.Grammar.Levels
import PlotFormula.Proofs.Grammar.Masks

/-! # Written products

A text is written out when no product is implied any more. Writing the products out reaches such a text in
one pass, although every star cuts a word in two and may bring a name to light: that hides more characters,
and a hidden character implies nothing. Writing also commutes with taking away enclosing parentheses, so the
normal text of a normal text is the text itself.
-/
namespace PlotFormula.Grammar
variable {vars : List Char}

/-- No entry of the table is a parenthesis or the character of the mask. -/
structure Shielded (vars : List Char) : Prop where
  mask : '_' ∉ vars
  opening : '(' ∉ vars
  closing : ')' ∉ vars

/-- A character that has a meaning of its own in every formula. -/
def isReserved (c : Char) : Bool :=
  c == ' ' || c.isDigit || c == '.' || c == ',' || c == '_' || c == '(' || c == ')' || isOperator c

/-- Every entry of the table may be a variable and is nothing else. -/
def IsPlain (vars : List Char) : Prop := ∀ c ∈ vars, isReserved c = false

instance decidableIsPlain (vars : List Char) : Decidable (IsPlain vars) :=
  List.decidableBAll (fun c => isReserved c = false) vars

theorem IsPlain.not_mem (h : IsPlain vars) {c : Char} (hc : isReserved c = true) : c ∉ vars := by
  intro hmem
  rw [h c hmem] at hc
  simp at hc

theorem IsPlain.shielded (h : IsPlain vars) : Shielded vars :=
  ⟨h.not_mem (by decide), h.not_mem (by decide), h.not_mem (by decide)⟩

theorem isVariable_eq_false {c : Char} (h : c ∉ vars) : isVariable vars c = false := by
  simp [isVariable, h]

theorem isFactor_eq_false {c : Char} (h : c ∉ vars) (hdigit : c.isDigit = false) (hpoint : c ≠ '.') :
    isFactor vars c = false := by
  simp [isFactor, isVariable_eq_false h, hdigit, hpoint]

theorem impliesProduct_of_left {c : Char} (h : isFactor vars c = false) (hclose : c ≠ ')') (hx : c ≠ 'x')
    (d : Char) : impliesProduct vars c d = false := by
  simp [impliesProduct, h, hclose, hx]

theorem impliesProduct_of_right {d : Char} (h : isFactor vars d = false) (hopen : d ≠ '(') (c : Char) :
    impliesProduct vars c d = false := by
  have hvariable : isVariable vars d = false := by
    simp only [isFactor, Bool.or_eq_false_iff] at h
    exact h.2
  simp [impliesProduct, h, hvariable, hopen]

theorem Shielded.mask_left (h : Shielded vars) (d : Char) : impliesProduct vars '_' d = false :=
  impliesProduct_of_left (isFactor_eq_false h.mask (by decide) (by decide)) (by decide) (by decide) d

theorem Shielded.mask_right (h : Shielded vars) (c : Char) : impliesProduct vars c '_' = false :=
  impliesProduct_of_right (isFactor_eq_false h.mask (by decide) (by decide)) (by decide) c

theorem Shielded.open_left (h : Shielded vars) (d : Char) : impliesProduct vars '(' d = false :=
  impliesProduct_of_left (isFactor_eq_false h.opening (by decide) (by decide)) (by decide) (by decide) d

theorem Shielded.close_right (h : Shielded vars) (c : Char) : impliesProduct vars c ')' = false :=
  impliesProduct_of_right (isFactor_eq_false h.closing (by decide) (by decide)) (by decide) c

structure Separates (vars : List Char) (d : Char) : Prop where
  endsWords : EndsWords d
  left : ∀ c, impliesProduct vars d c = false
  right : ∀ c, impliesProduct vars c d = false

theorem separates_of_not_mem {d : Char} (hwords : EndsWords d) (h : d ∉ vars) (hdigit : d.isDigit = false)
    (hpoint : d ≠ '.') (hopen : d ≠ '(') (hclose : d ≠ ')') : Separates vars d := by
  have hfactor := isFactor_eq_false h hdigit hpoint
  refine ⟨hwords, impliesProduct_of_left hfactor hclose ?_, impliesProduct_of_right hfactor hopen⟩
  rintro rfl
  exact absurd hwords (by decide)

theorem IsPlain.separates_symbol (h : IsPlain vars) (op : Op) : Separates vars op.symbol := by
  refine separates_of_not_mem (endsWords_symbol op) (h.not_mem ?_) ?_ ?_ ?_ ?_ <;> cases op <;> decide

theorem IsPlain.separates_comma (h : IsPlain vars) : Separates vars ',' :=
  separates_of_not_mem endsWords_comma (h.not_mem (by decide)) (by decide) (by decide) (by decide) (by decide)

/-- What is written between two texts, by the last character of the one and the first of the other. -/
def seam (vars : List Char) : Option Char → Option Char → List Char
  | some c, some d => if impliesProduct vars c d then ['*'] else []
  | _, _ => []

@[simp] theorem seam_none_left (d : Option Char) : seam vars none d = [] := rfl

@[simp] theorem seam_none_right (c : Option Char) : seam vars c none = [] := by
  cases c <;> rfl

theorem insertProducts_append (xs ys : List (Char × Char)) :
    insertProducts vars (xs ++ ys) = insertProducts vars xs ++
      (seam vars (xs.getLast?.map Prod.snd) (ys.head?.map Prod.snd) ++ insertProducts vars ys) := by
  induction xs with
  | nil => simp [insertProducts]
  | cons p xs ih =>
    cases xs with
    | nil =>
      cases ys with
      | nil => simp [insertProducts]
      | cons q ys =>
        simp only [List.singleton_append, insertProducts, seam, List.getLast?_singleton, Option.map_some,
          List.head?_cons]
        split <;> simp
    | cons q xs =>
      have hlast : (p :: q :: xs).getLast? = (q :: xs).getLast? := List.getLast?_cons_cons
      simp only [List.cons_append] at ih ⊢
      rw [insertProducts, insertProducts, ih, hlast]
      split <;> simp

theorem writeProducts_append {s t : List Char} (h : maskNames (s ++ t) = maskNames s ++ maskNames t) :
    writeProducts vars (s ++ t) = writeProducts vars s ++
      (seam vars (maskNames s).getLast? (maskNames t).head? ++ writeProducts vars t) := by
  have hlast : (s.zip (maskNames s)).getLast?.map Prod.snd = (maskNames s).getLast? := by
    rw [← List.getLast?_map, List.map_snd_zip (by simp)]
  have hhead : (t.zip (maskNames t)).head?.map Prod.snd = (maskNames t).head? := by
    rw [← List.head?_map, List.map_snd_zip (by simp)]
  rw [writeProducts, h, List.zip_append (by simp), insertProducts_append, hlast, hhead]
  rfl

theorem writeProducts_singleton (c : Char) : writeProducts vars [c] = [c] := by
  obtain ⟨m, hm⟩ := List.length_eq_one_iff.mp (length_maskNames [c])
  rw [writeProducts, hm]
  rfl

theorem writeProducts_cons {d : Char} (hd : EndsWords d) (h : ∀ c, impliesProduct vars d c = false)
    (s : List Char) : writeProducts vars (d :: s) = d :: writeProducts vars s := by
  have hmask : maskNames ([d] ++ s) = maskNames [d] ++ maskNames s := by
    simp [hd.maskNames_cons]
  have hseam : seam vars (maskNames [d]).getLast? (maskNames s).head? = [] := by
    rw [hd.maskNames_cons]
    cases (maskNames s).head? <;> simp [seam, h]
  rw [← List.singleton_append, writeProducts_append hmask, hseam, writeProducts_singleton]
  rfl

theorem writeProducts_append_cons {d : Char} (hd : EndsWords d)
    (h : ∀ c, impliesProduct vars c d = false) (s t : List Char) :
    writeProducts vars (s ++ d :: t) = writeProducts vars s ++ writeProducts vars (d :: t) := by
  have hseam : seam vars (maskNames s).getLast? (maskNames (d :: t)).head? = [] := by
    rw [hd.maskNames_cons]
    cases (maskNames s).getLast? <;> simp [seam, h]
  rw [writeProducts_append (hd.maskNames_append s t), hseam, List.nil_append]

theorem Separates.writeProducts_append {d : Char} (hd : Separates vars d) (s t : List Char) :
    writeProducts vars (s ++ d :: t) = writeProducts vars s ++ d :: writeProducts vars t := by
  rw [writeProducts_append_cons hd.endsWords hd.right, writeProducts_cons hd.endsWords hd.left]

theorem Shielded.writeProducts_parens (h : Shielded vars) (s : List Char) :
    writeProducts vars ('(' :: s ++ [')']) = '(' :: writeProducts vars s ++ [')'] := by
  rw [List.cons_append, writeProducts_cons endsWords_open h.open_left,
    writeProducts_append_cons endsWords_close h.close_right, writeProducts_singleton]
  rfl

theorem head?_writeProducts (s : List Char) : (writeProducts vars s).head? = s.head? := by
  cases s with
  | nil => rfl
  | cons c s =>
    rw [writeProducts]
    cases hm : maskNames (c :: s) with
    | nil =>
      have := congrArg List.length hm
      simp at this
    | cons d m =>
      rw [List.zip_cons_cons, insertProducts_cons]
      rfl

theorem getLast?_insertProducts (s : List (Char × Char)) :
    (insertProducts vars s).getLast? = s.getLast?.map Prod.fst := by
  induction s with
  | nil => rfl
  | cons p s ih =>
    cases s with
    | nil => rfl
    | cons q s =>
      rw [insertProducts_cons] at ih
      rw [insertProducts, insertProducts_cons, List.getLast?_cons_cons, ← ih]
      split <;> simp only [List.getLast?_cons_cons]

theorem getLast?_writeProducts (s : List Char) : (writeProducts vars s).getLast? = s.getLast? := by
  rw [writeProducts, getLast?_insertProducts, ← List.getLast?_map, List.map_fst_zip (by simp)]

theorem filter_insertProducts (s : List (Char × Char)) :
    (insertProducts vars s).filter (· ≠ '*') = (s.map Prod.fst).filter (· ≠ '*') := by
  induction s with
  | nil => rfl
  | cons p s ih =>
    cases s with
    | nil => rfl
    | cons q s =>
      rw [insertProducts, List.map_cons, List.filter_cons, ← ih]
      split <;> simp [List.filter_cons]

theorem filter_writeProducts (s : List Char) :
    (writeProducts vars s).filter (· ≠ '*') = s.filter (· ≠ '*') := by
  rw [writeProducts, filter_insertProducts, List.map_fst_zip (by simp)]

theorem mem_writeProducts {s : List Char} {c : Char} (h : c ∈ writeProducts vars s) : c ∈ s ∨ c = '*' := by
  by_cases hc : c = '*'
  · exact .inr hc
  · have : c ∈ (writeProducts vars s).filter (· ≠ '*') := by simp [h, hc]
    rw [filter_writeProducts] at this
    exact .inl (List.mem_filter.mp this).1

theorem insertProducts_congr {vars' : List Char} {s : List (Char × Char)}
    (h : ∀ p ∈ s, isVariable vars p.2 = isVariable vars' p.2) :
    insertProducts vars s = insertProducts vars' s := by
  induction s with
  | nil => rfl
  | cons p s ih =>
    cases s with
    | nil => rfl
    | cons q s =>
      obtain ⟨hp, hs⟩ := List.forall_mem_cons.mp h
      have hq := hs q List.mem_cons_self
      have hproduct : impliesProduct vars p.2 q.2 = impliesProduct vars' p.2 q.2 := by
        simp only [impliesProduct, isFactor, hp, hq]
      rw [insertProducts, insertProducts, hproduct, ih hs]

/-- All that matters of a table is which characters of the masked text are its variables. -/
theorem writeProducts_congr {vars' s : List Char}
    (h : ∀ c ∈ maskNames s, isVariable vars c = isVariable vars' c) :
    writeProducts vars s = writeProducts vars' s :=
  insertProducts_congr fun p hp => h p.2 (List.of_mem_zip hp).2

/-- No product is implied between two neighbours of the masked text. -/
def Written (vars s : List Char) : Prop :=
  (maskNames s).IsChain fun c d => impliesProduct vars c d = false

theorem insertProducts_of_isChain {s : List (Char × Char)}
    (h : (s.map Prod.snd).IsChain fun c d => impliesProduct vars c d = false) :
    insertProducts vars s = s.map Prod.fst := by
  induction s with
  | nil => rfl
  | cons p s ih =>
    cases s with
    | nil => rfl
    | cons q s =>
      obtain ⟨hpq, hs⟩ := List.isChain_cons_cons.mp h
      rw [insertProducts, hpq, ih hs]
      rfl

theorem Written.writeProducts_eq {s : List Char} (h : Written vars s) : writeProducts vars s = s := by
  have hfst : (s.zip (maskNames s)).map Prod.fst = s := List.map_fst_zip (by simp)
  have hsnd : (s.zip (maskNames s)).map Prod.snd = maskNames s := List.map_snd_zip (by simp)
  rw [writeProducts, insertProducts_of_isChain (by rw [hsnd]; exact h), hfst]

/-- The text with its products, when it begins `inside` a hidden name or not. -/
def writeWith (vars : List Char) (inside : Bool) (s : List Char) : List Char :=
  insertProducts vars (s.zip (maskWith inside s))

theorem writeProducts_eq_writeWith (s : List Char) : writeProducts vars s = writeWith vars false s := by
  rw [writeProducts, writeWith, maskNames_eq_maskWith]

def veil (inside : Bool) (c : Char) (s : List Char) : Char := if hides inside (c :: s) then '_' else c

theorem maskWith_cons (inside : Bool) (c : Char) (s : List Char) :
    maskWith inside (c :: s) = veil inside c s :: maskWith (hides inside (c :: s)) s := rfl

theorem mem_maskWith {inside : Bool} {s : List Char} {c : Char} (h : c ∈ maskWith inside s) :
    c = '_' ∨ c ∈ s := by
  induction s generalizing inside with
  | nil => simp [maskWith] at h
  | cons d s ih =>
    rw [maskWith_cons, List.mem_cons] at h
    rcases h with rfl | h
    · unfold veil
      split
      · exact .inl rfl
      · exact .inr List.mem_cons_self
    · exact (ih h).imp_right (List.mem_cons_of_mem d)

theorem Shielded.hides_of_impliesProduct (h : Shielded vars) {inside : Bool} {c d : Char} {s : List Char}
    (hproduct : impliesProduct vars (veil inside c s) d = true) : hides inside (c :: s) = false := by
  by_contra hhides
  rw [veil, if_pos (by simpa using hhides), h.mask_left] at hproduct
  simp at hproduct

theorem Shielded.impliesProduct_of_veil (h : Shielded vars) {inside inside' : Bool} {c d : Char} {s t : List Char}
    (hveil : impliesProduct vars (veil inside c s) (veil inside' d t) = true) :
    impliesProduct vars c d = true := by
  unfold veil at hveil
  split at hveil
  · rw [h.mask_left] at hveil
    simp at hveil
  · split at hveil
    · rw [h.mask_right] at hveil
      simp at hveil
    · exact hveil

theorem writeWith_cons_cons (inside : Bool) (c d : Char) (s : List Char) :
    writeWith vars inside (c :: d :: s) =
      if impliesProduct vars (veil inside c (d :: s)) (veil (hides inside (c :: d :: s)) d s) then
        c :: '*' :: writeWith vars (hides inside (c :: d :: s)) (d :: s)
      else c :: writeWith vars (hides inside (c :: d :: s)) (d :: s) := rfl

theorem writeWith_cons (vars : List Char) (inside : Bool) (c : Char) (s : List Char) :
    ∃ t, writeWith vars inside (c :: s) = c :: t :=
  ⟨_, insertProducts_cons vars _ _⟩

theorem Shielded.takeWhile_writeWith (h : Shielded vars) (s : List Char) :
    (writeWith vars true s).takeWhile isNamePart = s.takeWhile isNamePart := by
  induction s with
  | nil => rfl
  | cons c s ih =>
    cases hc : isNamePart c with
    | false =>
      obtain ⟨t, ht⟩ := writeWith_cons vars true c s
      simp [ht, hc]
    | true =>
      cases s with
      | nil => rfl
      | cons d s =>
        have hhides : hides true (c :: d :: s) = true := by simp [hides, hc]
        have hveil : veil true c (d :: s) = '_' := by rw [veil, hhides]; rfl
        rw [writeWith_cons_cons, hveil, h.mask_left, hhides, if_neg Bool.false_ne_true,
          List.takeWhile_cons_of_pos hc, List.takeWhile_cons_of_pos hc, ih]

theorem Shielded.writeWith_of_hides (h : Shielded vars) {inside : Bool} {c : Char} {s : List Char}
    (hhides : hides inside (c :: s) = true) :
    writeWith vars inside (c :: s) = c :: writeWith vars true s := by
  cases s with
  | nil => rfl
  | cons d s =>
    have hveil : veil inside c (d :: s) = '_' := by rw [veil, hhides]; rfl
    rw [writeWith_cons_cons, hveil, h.mask_left, hhides, if_neg Bool.false_ne_true]

/-- What a mask hides, the mask of the written text hides as well. -/
theorem Shielded.hides_writeWith (h : Shielded vars) {inside inside' : Bool}
    (hin : inside = true → inside' = true) {s : List Char} (hhides : hides inside s = true) :
    hides inside' (writeWith vars inside s) = true := by
  cases s with
  | nil => simp [hides] at hhides
  | cons c s =>
    rw [h.writeWith_of_hides hhides]
    rw [hides, Bool.or_eq_true, Bool.and_eq_true] at hhides
    rw [hides, Bool.or_eq_true, Bool.and_eq_true]
    rcases hhides with ⟨hi, hc⟩ | hname
    · exact .inl ⟨hin hi, hc⟩
    · refine .inr ?_
      rwa [firstWord, h.takeWhile_writeWith, ← firstWord]

theorem Shielded.impliesProduct_veil (h : Shielded vars) {c d : Char} {hc hc' hd hd' : Bool}
    (hcc : hc = true → hc' = true) (hdd : hd = true → hd' = true)
    (hcd : impliesProduct vars (if hc then '_' else c) (if hd then '_' else d) = false) :
    impliesProduct vars (if hc' then '_' else c) (if hd' then '_' else d) = false := by
  cases hc' with
  | true => exact h.mask_left _
  | false =>
    cases hd' with
    | true => exact h.mask_right _
    | false =>
      have hc : hc = false := by simpa using hcc
      have hd : hd = false := by simpa using hdd
      rwa [hc, hd] at hcd

/-- The induction is on the text, with a state of the scan that hides no less after writing than before. -/
theorem Shielded.isChain_writeWith (h : Shielded vars) (s : List Char) {inside inside' : Bool}
    (hin : inside = true → inside' = true) :
    (maskWith inside' (writeWith vars inside s)).IsChain fun c d => impliesProduct vars c d = false := by
  induction s generalizing inside inside' with
  | nil => exact .nil
  | cons c s ih =>
    cases s with
    | nil => exact .singleton _
    | cons d s =>
      obtain ⟨t, ht⟩ := writeWith_cons vars (hides inside (c :: d :: s)) d s
      rw [writeWith_cons_cons]
      split
      next hproduct =>
        -- The star ends words, so the scan of the written text begins anew after it.
        have hhides := h.hides_of_impliesProduct hproduct
        have hstar : EndsWords '*' := by decide
        have ih := ih (show false = true → false = true from id)
        rw [hhides] at ht ⊢
        rw [ht, maskWith_cons] at ih
        rw [ht, maskWith_cons, hstar.maskWith_cons, maskWith_cons]
        exact .cons_cons (impliesProduct_star_right vars _)
          (.cons_cons (impliesProduct_star_left vars _) ih)
      next hproduct =>
        -- No star: whatever the first scan hides at `c` and `d`, the second hides as well.
        have hc : hides inside (c :: d :: s) = true →
            hides inside' (c :: writeWith vars (hides inside (c :: d :: s)) (d :: s)) = true := by
          intro hh
          have := h.hides_writeWith hin hh
          rwa [hh, ← h.writeWith_of_hides hh]
        have hd : hides (hides inside (c :: d :: s)) (d :: s) = true →
            hides (hides inside' (c :: writeWith vars (hides inside (c :: d :: s)) (d :: s)))
              (writeWith vars (hides inside (c :: d :: s)) (d :: s)) = true :=
          h.hides_writeWith hc
        have ih := ih hc
        rw [ht] at hc hd ih ⊢
        rw [maskWith_cons] at ih
        rw [maskWith_cons, maskWith_cons]
        exact .cons_cons (h.impliesProduct_veil hc hd (Bool.eq_false_iff.mpr hproduct)) ih

theorem Shielded.written_writeProducts (h : Shielded vars) (s : List Char) :
    Written vars (writeProducts vars s) := by
  rw [Written, maskNames_eq_maskWith, writeProducts_eq_writeWith]
  exact h.isChain_writeWith s id

theorem written_append_cons {d : Char} (hd : EndsWords d) {s t : List Char} :
    Written vars (s ++ d :: t) ↔ Written vars s ∧ Written vars (d :: t) ∧
      ∀ c ∈ (maskNames s).getLast?, impliesProduct vars c d = false := by
  rw [Written, hd.maskNames_append, List.isChain_append, ← Written, ← Written, hd.maskNames_cons]
  simp

theorem written_cons {d : Char} (hd : EndsWords d) (h : ∀ c, impliesProduct vars d c = false)
    {s : List Char} : Written vars (d :: s) ↔ Written vars s := by
  rw [Written, hd.maskNames_cons, List.isChain_cons, ← Written]
  simp [h]

theorem Separates.written_append {d : Char} (hd : Separates vars d) {s t : List Char} :
    Written vars (s ++ d :: t) ↔ Written vars s ∧ Written vars t := by
  rw [written_append_cons hd.endsWords, written_cons hd.endsWords hd.left]
  simp [hd.right]

theorem written_nil : Written vars [] := .nil

theorem written_singleton (c : Char) : Written vars [c] := by
  obtain ⟨m, hm⟩ := List.length_eq_one_iff.mp (length_maskNames [c])
  rw [Written, hm]
  exact .singleton m

theorem Shielded.written_parens (h : Shielded vars) {s : List Char} :
    Written vars ('(' :: s ++ [')']) ↔ Written vars s := by
  rw [List.cons_append, written_cons endsWords_open h.open_left, written_append_cons endsWords_close]
  simp [written_singleton, h.close_right]

theorem eq_mask_of_mem_getLast? {f : Func} {c : Char} (h : c ∈ (maskNames f.name).getLast?) : c = '_' := by
  rw [maskNames_name] at h
  exact List.eq_of_mem_replicate (List.mem_of_getLast? h)

theorem Shielded.written_name (h : Shielded vars) (f : Func) : Written vars f.name := by
  rw [Written, maskNames_name]
  exact List.isChain_replicate_of_rel _ (h.mask_left '_')

theorem Shielded.written_call (h : Shielded vars) (f : Func) {s : List Char} :
    Written vars (f.name ++ ('(' :: s ++ [')'])) ↔ Written vars s := by
  have hlast : ∀ c ∈ (maskNames f.name).getLast?, impliesProduct vars c '(' = false := by
    intro c hc
    obtain rfl := eq_mask_of_mem_getLast? hc
    exact h.mask_left '('
  rw [List.cons_append, written_append_cons endsWords_open, ← List.cons_append, h.written_parens]
  exact ⟨fun hs => hs.2.1, fun hs => ⟨h.written_name f, hs, hlast⟩⟩

theorem IsPlain.impliesProduct_of_digits (h : IsPlain vars) {c d : Char} (hc : c.isDigit = true ∨ c = '.')
    (hd : d.isDigit = true ∨ d = '.') : impliesProduct vars c d = false := by
  have hvariable : isVariable vars d = false := by
    refine isVariable_eq_false (h.not_mem ?_)
    rcases hd with hd | rfl
    · simp [isReserved, hd]
    · decide
  have hopen : d ≠ '(' := by
    rintro rfl
    exact absurd hd (by decide)
  have hclose : c ≠ ')' ∧ c ≠ 'x' := by
    refine ⟨?_, ?_⟩ <;> rintro rfl <;> exact absurd hc (by decide)
  simp [impliesProduct, hvariable, hopen, hclose]

theorem IsPlain.written_of_digits (h : IsPlain vars) {s : List Char}
    (hs : ∀ c ∈ s, c.isDigit = true ∨ c = '.') : Written vars s := by
  have hmask : maskNames s = s := by
    rw [maskNames_eq_maskWith]
    apply maskWith_of_not_isNameStart
    intro c hc
    rcases hs c hc with hdigit | rfl
    · exact isNameStart_of_isDigit hdigit
    · decide
  rw [Written, hmask]
  exact (List.pairwise_of_forall_mem_list fun c hc d hd =>
    h.impliesProduct_of_digits (hs c hc) (hs d hd)).isChain

theorem staysOpen_filter {k : Int} (hk : k ≠ 0) (s : List Char) :
    staysOpen k (s.filter (· ≠ '*')) = staysOpen k s := by
  induction s generalizing k with
  | nil => rfl
  | cons c s ih =>
    by_cases hc : c = '*'
    · subst hc
      have hbracket : k - bracket '*' = k := by simp [bracket]
      rw [staysOpen, hbracket, List.filter_cons_of_neg (by simp), ih hk]
      simp [hk]
    · rw [List.filter_cons_of_pos (by simp [hc]), staysOpen, staysOpen]
      by_cases hzero : k - bracket c = 0
      · simp [hzero]
      · rw [ih hzero]

theorem unwrap?_parens (s : List Char) :
    unwrap? ('(' :: s ++ [')']) = if staysOpen 1 s.reverse then some s else none := by
  simp [unwrap?]

theorem unwrap?_eq_none {s : List Char} (h : ∀ inner, s ≠ '(' :: inner ++ [')']) : unwrap? s = none := by
  cases hs : unwrap? s with
  | none => rfl
  | some inner => exact absurd (eq_of_unwrap? hs) (h inner)

theorem eq_parens {s : List Char} (hhead : s.head? = some '(') (hlast : s.getLast? = some ')') :
    ∃ inner, s = '(' :: inner ++ [')'] := by
  obtain ⟨t, rfl⟩ := List.getLast?_eq_some_iff.mp hlast
  cases t with
  | nil => simp at hhead
  | cons c t =>
    obtain rfl : c = '(' := by simpa using hhead
    exact ⟨t, rfl⟩

theorem unwrap?_strip (s : List Char) : unwrap? (strip s) = none := by
  fun_induction strip s with
  | case1 s inner _ ih => exact ih
  | case2 s h => exact h

theorem strip_of_unwrap?_eq_none {s : List Char} (h : unwrap? s = none) : strip s = s := by
  rw [strip]
  split
  next hs => rw [h] at hs; simp at hs
  next => rfl

theorem strip_of_unwrap?_eq_some {s inner : List Char} (h : unwrap? s = some inner) :
    strip s = strip inner := by
  rw [strip]
  split
  next hs => rw [h] at hs; rw [Option.some.inj hs]
  next hs => rw [h] at hs; simp at hs

/-- A change of texts that neither makes nor breaks a pair of parentheses around a text. -/
structure KeepsParens (g : List Char → List Char) : Prop where
  parens : ∀ s, g ('(' :: s ++ [')']) = '(' :: g s ++ [')']
  head?_iff : ∀ s, (g s).head? = some '(' ↔ s.head? = some '('
  getLast?_iff : ∀ s, (g s).getLast? = some ')' ↔ s.getLast? = some ')'
  staysOpen_eq : ∀ s, staysOpen 1 (g s).reverse = staysOpen 1 s.reverse

namespace KeepsParens
variable {g : List Char → List Char}

theorem unwrap?_eq (h : KeepsParens g) (s : List Char) : unwrap? (g s) = (unwrap? s).map g := by
  by_cases hs : s.head? = some '(' ∧ s.getLast? = some ')'
  · obtain ⟨inner, rfl⟩ := eq_parens hs.1 hs.2
    rw [h.parens, unwrap?_parens, unwrap?_parens, h.staysOpen_eq]
    split <;> rfl
  · have hnone (t : List Char) (ht : ¬ (t.head? = some '(' ∧ t.getLast? = some ')')) : unwrap? t = none := by
      apply unwrap?_eq_none
      rintro inner rfl
      exact ht ⟨rfl, List.getLast?_concat⟩
    rw [hnone s hs, hnone (g s) (by rwa [h.head?_iff, h.getLast?_iff])]
    rfl

theorem strip_eq (h : KeepsParens g) (s : List Char) : strip (g s) = g (strip s) := by
  fun_induction strip s with
  | case1 s inner hs ih =>
    have hsome : unwrap? (g s) = some (g inner) := by
      rw [h.unwrap?_eq, hs]
      rfl
    rw [strip_of_unwrap?_eq_some hsome, ih]
  | case2 s hs =>
    apply strip_of_unwrap?_eq_none
    rw [h.unwrap?_eq, hs]
    rfl

end KeepsParens

theorem Shielded.keepsParens_writeProducts (h : Shielded vars) : KeepsParens (writeProducts vars) where
  parens := h.writeProducts_parens
  head?_iff s := by rw [head?_writeProducts]
  getLast?_iff s := by rw [getLast?_writeProducts]
  staysOpen_eq s := by
    rw [← staysOpen_filter (by decide), List.filter_reverse, filter_writeProducts, ← List.filter_reverse,
      staysOpen_filter (by decide)]

theorem Shielded.strip_writeProducts (h : Shielded vars) (s : List Char) :
    strip (writeProducts vars s) = writeProducts vars (strip s) :=
  h.keepsParens_writeProducts.strip_eq s

theorem Shielded.written_strip (h : Shielded vars) {s : List Char} (hs : Written vars s) :
    Written vars (strip s) := by
  fun_induction strip s with
  | case1 s inner hinner ih =>
    rw [eq_of_unwrap? hinner] at hs
    exact ih (h.written_parens.mp hs)
  | case2 => exact hs

theorem Shielded.normal_eq_strip (h : Shielded vars) {s : List Char} (hs : Written vars s) :
    normal vars s = strip s := by
  rw [normal, (h.written_strip hs).writeProducts_eq]

/-- The normal text of a normal text is the text itself. -/
theorem Shielded.normal_normal (h : Shielded vars) (s : List Char) :
    normal vars (normal vars s) = normal vars s := by
  have hwritten : Written vars (normal vars s) := h.written_writeProducts (strip s)
  rw [h.normal_eq_strip hwritten, normal, h.strip_writeProducts, strip_of_unwrap?_eq_none (unwrap?_strip s)]

theorem normal_strip (s : List Char) : normal vars (strip s) = normal vars s := by
  rw [normal, strip_of_unwrap?_eq_none (unwrap?_strip s), normal]

theorem Shielded.normal_writeProducts (h : Shielded vars) (s : List Char) :
    normal vars (writeProducts vars s) = normal vars s := by
  rw [h.normal_eq_strip (h.written_writeProducts s), h.strip_writeProducts, normal]

end PlotFormula.Grammar
