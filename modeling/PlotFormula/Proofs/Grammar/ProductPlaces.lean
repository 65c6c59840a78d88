import Mathlib.Data.List.Infix
import PlotFormula.Proofs.Grammar.HiddenNames

/-! # Where products are written

Products are written by a loop over a text and its mask that grow while it runs. What it comes to can be said
without the loop: the places of the stars are those of the mask of the text as it was, and at each of them one
star is put behind the character. No star touches a hidden name.
-/
namespace PlotFormula.Grammar
variable {vars : List Char}

def IsFactor (vars : List Char) (c : Char) : Prop := c.isDigit = true ∨ c = '.' ∨ c ∈ vars

instance decidableIsFactor (vars : List Char) (c : Char) : Decidable (IsFactor vars c) :=
  inferInstanceAs (Decidable (c.isDigit = true ∨ c = '.' ∨ c ∈ vars))

/-- Two neighbours that are multiplied: a factor with what may begin another one, the end of a pair of parentheses
or an `x` with a factor, or two pairs of parentheses. -/
def AreMultiplied (vars : List Char) (c d : Char) : Prop :=
  IsFactor vars c ∧ (d = '(' ∨ d ∈ vars) ∨ (c = ')' ∨ c = 'x') ∧ IsFactor vars d ∨ c = ')' ∧ d = '('

instance decidableAreMultiplied (vars : List Char) (c d : Char) : Decidable (AreMultiplied vars c d) :=
  inferInstanceAs (Decidable (_ ∨ _ ∨ _))

def isProductPlace (vars mask : List Char) (i : Nat) : Bool :=
  match mask[i]?, mask[i + 1]? with
  | some c, some d => AreMultiplied vars c d
  | _, _ => false

def putStars (places : Nat → Bool) (s : List Char) : List Char :=
  s.zipIdx.flatMap fun p => if places p.2 then [p.1, '*'] else [p.1]

theorem putStars_cons (places : Nat → Bool) (c : Char) (s : List Char) :
    putStars places (c :: s) =
      (if places 0 then [c, '*'] else [c]) ++ putStars (fun i => places (i + 1)) s := by
  rw [putStars, putStars, List.zipIdx_cons, List.flatMap_cons, List.zipIdx_succ, List.flatMap_map]

def starsBefore (places : Nat → Bool) (i : Nat) : Nat := (List.range i).countP places

theorem starsBefore_succ (places : Nat → Bool) (i : Nat) :
    starsBefore places (i + 1) = (if places 0 then 1 else 0) + starsBefore (fun i => places (i + 1)) i := by
  rw [starsBefore, List.range_succ_eq_map, List.countP_cons, List.countP_map, Nat.add_comm]
  rfl

/-- The second text is the first one with a star behind the character at each of the places: every character has
moved by the stars before it, and nothing else has been added. -/
structure IsStarred (places : Nat → Bool) (s t : List Char) : Prop where
  length_eq : t.length = s.length + starsBefore places s.length
  char : ∀ i c, s[i]? = some c → t[i + starsBefore places i]? = some c
  star : ∀ i < s.length, places i = true → t[i + starsBefore places i + 1]? = some '*'

theorem isStarred_putStars (places : Nat → Bool) (s : List Char) : IsStarred places s (putStars places s) := by
  induction s generalizing places with
  | nil => exact ⟨rfl, by simp, by simp⟩
  | cons c s ih =>
    obtain ⟨hlength, hchar, hstar⟩ := ih fun i => places (i + 1)
    -- Behind the first character and its star, if there is one, stands the text of the tail.
    have hskip (j : Nat) : (putStars places (c :: s))[(if places 0 then 1 else 0) + j + 1]? =
        (putStars (fun i => places (i + 1)) s)[j]? := by
      rw [putStars_cons]
      split
      next => rw [Nat.add_comm 1 j]; rfl
      next => rw [Nat.zero_add]; rfl
    refine ⟨?_, ?_, ?_⟩
    · rw [putStars_cons, List.length_append, hlength, List.length_cons, starsBefore_succ]
      split <;> simp <;> omega
    · intro i d hd
      cases i with
      | zero =>
        obtain rfl : c = d := by simpa using hd
        rw [putStars_cons]
        split <;> rfl
      | succ i =>
        have := hchar i d (by simpa using hd)
        rw [← hskip] at this
        rw [starsBefore_succ, ← this]
        congr 1
        omega
    · intro i hi hplace
      cases i with
      | zero =>
        rw [putStars_cons, if_pos hplace]
        rfl
      | succ i =>
        have := hstar i (Nat.lt_of_succ_lt_succ hi) hplace
        rw [← hskip] at this
        rw [starsBefore_succ, ← this]
        congr 1
        omega

theorem impliesProduct_iff (hstar : '*' ∉ vars) {c d : Char} :
    impliesProduct vars c d = true ↔ AreMultiplied vars c d := by
  rw [← asksProduct_eq hstar]
  simp [asksProduct, AreMultiplied, IsFactor, and_comm, or_assoc]

theorem insertProducts_zip (hstar : '*' ∉ vars) {s mask : List Char} (h : mask.length = s.length) :
    insertProducts vars (s.zip mask) = putStars (isProductPlace vars mask) s := by
  induction s generalizing mask with
  | nil => rfl
  | cons c s ih =>
    obtain ⟨e, mask, rfl⟩ := List.exists_cons_of_length_eq_add_one h
    have hmask : mask.length = s.length := Nat.succ.inj h
    have hrest : (fun i => isProductPlace vars (e :: mask) (i + 1)) = isProductPlace vars mask := rfl
    rw [putStars_cons, hrest, ← ih hmask]
    cases s with
    | nil =>
      obtain rfl := List.eq_nil_of_length_eq_zero hmask
      rfl
    | cons d s =>
      obtain ⟨e', mask, rfl⟩ := List.exists_cons_of_length_eq_add_one hmask
      have hplace : isProductPlace vars (e :: e' :: mask) 0 = impliesProduct vars e e' := by
        rw [Bool.eq_iff_iff, impliesProduct_iff hstar]
        exact decide_eq_true_iff
      rw [hplace, List.zip_cons_cons, List.zip_cons_cons, insertProducts]
      split <;> rfl

theorem AreMultiplied.ne_mask (hmask : '_' ∉ vars) {c d : Char} (h : AreMultiplied vars c d) :
    c ≠ '_' ∧ d ≠ '_' := by
  have hfactor : ¬ IsFactor vars '_' := by
    simp [IsFactor, hmask]
  constructor
  · rintro rfl
    simp [AreMultiplied, hfactor] at h
  · rintro rfl
    simp [AreMultiplied, hfactor, hmask] at h

theorem exists_of_isProductPlace {mask : List Char} {i : Nat} (h : isProductPlace vars mask i = true) :
    ∃ c d, mask[i]? = some c ∧ mask[i + 1]? = some d ∧ AreMultiplied vars c d := by
  unfold isProductPlace at h
  split at h
  next c d hc hd => exact ⟨c, d, hc, hd, of_decide_eq_true h⟩
  next => simp at h

theorem isProductPlace_outside (hmask : '_' ∉ vars) {l r : List Char} {n : Nat} (hn : n ≠ 0) {i : Nat}
    (h : isProductPlace vars (l ++ List.replicate n '_' ++ r) i = true) :
    i + 1 < l.length ∨ l.length + n ≤ i := by
  obtain ⟨c, d, hc, hd, hproduct⟩ := exists_of_isProductPlace h
  obtain ⟨hcmask, hdmask⟩ := hproduct.ne_mask hmask
  have hidden {j : Nat} (hle : l.length ≤ j) (hlt : j < l.length + n) :
      (l ++ List.replicate n '_' ++ r)[j]? = some '_' := by
    rw [List.append_assoc, List.getElem?_append_right hle, List.getElem?_append_left (by simp; omega),
      List.getElem?_replicate_of_lt (by omega)]
  by_contra hnot
  by_cases hi : l.length ≤ i
  · rw [hidden hi (by omega)] at hc
    exact hcmask (Option.some.inj hc).symm
  · rw [hidden (j := i + 1) (by omega) (by omega)] at hd
    exact hdmask (Option.some.inj hd).symm

/-- The loop writes exactly the stars of the product places of the first mask, each behind the character at its
place, and neither adds, loses nor moves anything else. If no variable is written like the mask, no star stands
inside a hidden name or next to one. -/
theorem insertAt?_putStars (hstar : '*' ∉ vars) (s : List Char) :
    insertAt? vars (2 * s.length + 1) 0 s (maskNames s) = some (writeProducts vars s) ∧
      writeProducts vars s = putStars (isProductPlace vars (maskNames s)) s ∧
      IsStarred (isProductPlace vars (maskNames s)) s (writeProducts vars s) ∧
      ('_' ∉ vars → ∀ l kept name r, s = l ++ (kept ++ name) ++ r → IsRun l (kept ++ name) r →
        HiddenName kept name → name ≠ [] → ∀ i, isProductPlace vars (maskNames s) i = true →
          i + 1 < (l ++ kept).length ∨ (l ++ kept ++ name).length ≤ i) := by
  have hwrite : writeProducts vars s = putStars (isProductPlace vars (maskNames s)) s :=
    insertProducts_zip hstar (length_maskNames s)
  have hstarred : IsStarred (isProductPlace vars (maskNames s)) s (writeProducts vars s) := by
    rw [hwrite]
    exact isStarred_putStars _ s
  refine ⟨insertAt?_eq hstar s, hwrite, hstarred, ?_⟩
  rintro hmask l kept name r rfl hrun hname hne i hplace
  have hmasked : maskNames (l ++ (kept ++ name) ++ r) =
      (maskNames l ++ kept) ++ List.replicate name.length '_' ++ maskNames r := by
    rw [hrun.maskNames_eq hname]
    simp only [List.append_assoc]
  rw [hmasked] at hplace
  have := isProductPlace_outside hmask (mt List.length_eq_zero_iff.mp hne) hplace
  simpa only [List.length_append, length_maskNames] using this

/-- The stars stand behind the places 0 and 7. The mask of `sin` takes up the places 2 to 4, and no star is put
behind the place 1. -/
theorem insertAt?_putStars_sin :
    '*' ∉ ['x'] ∧ '_' ∉ ['x'] ∧ IsRun [] ("2x".toList ++ "Sin".toList) "(x)3".toList ∧
      HiddenName "2x".toList "Sin".toList ∧
      insertAt? ['x'] 19 0 "2xSin(x)3".toList (maskNames "2xSin(x)3".toList) = some "2*xSin(x)*3".toList ∧
      IsStarred (isProductPlace ['x'] (maskNames "2xSin(x)3".toList)) "2xSin(x)3".toList
        "2*xSin(x)*3".toList ∧
      ∀ i, isProductPlace ['x'] (maskNames "2xSin(x)3".toList) i = true → i + 1 < 2 ∨ 5 ≤ i := by
  have hrun : IsRun [] ("2x".toList ++ "Sin".toList) "(x)3".toList := isRun_first (by decide) endsWords_open _
  have hname : HiddenName "2x".toList "Sin".toList := by
    refine ⟨fun _ => ⟨.sin, by decide⟩, ?_⟩
    intro u hu hcatalog
    have htails : ∀ v ∈ ("2x".toList ++ "Sin".toList).tails, isName v = true → v.length ≤ 3 := by decide
    exact htails u ((List.mem_tails u _).mpr hu) (isName_iff.mpr hcatalog)
  have hwrite : writeProducts ['x'] "2xSin(x)3".toList = "2*xSin(x)*3".toList := by decide
  have hstar : '*' ∉ ['x'] := by decide
  obtain ⟨hloop, -, hstarred, hnames⟩ := insertAt?_putStars hstar "2xSin(x)3".toList
  rw [hwrite] at hloop hstarred
  exact ⟨hstar, by decide, hrun, hname, hloop, hstarred,
    hnames (by decide) [] _ _ _ rfl hrun hname (by decide)⟩

end PlotFormula.Grammar
