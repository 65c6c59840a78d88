import PlotFormula.Grammar.Weight
import PlotFormula.Op

/-! # Masks

A name that reaches to the end of its word is hidden from where it begins, and then everything is hidden to
the end of the word. So a mask is also made by a scan that only knows whether it is inside a hidden name,
and the mask of a text in two parts is that of the parts wherever the parts share no word.
-/
namespace PlotFormula.Grammar

/-- A character that ends every word. -/
def EndsWords (d : Char) : Prop := isNamePart d = false

instance decidableEndsWords (d : Char) : Decidable (EndsWords d) :=
  inferInstanceAs (Decidable (isNamePart d = false))

theorem isNameStart_of_isDigit {c : Char} (h : c.isDigit = true) : isNameStart c = false := by
  obtain ⟨-, hhigh⟩ := Char.isDigit_iff_toNat.mp h
  have hlow {d : Char} (hd : '9'.toNat < d.toNat) : ¬ d.val ≤ c.val := by
    intro hle
    have : d.toNat ≤ c.toNat := UInt32.le_iff_toNat_le.mp hle
    omega
  have hupper : c.isUpper ≠ true := fun hc => hlow (d := 'A') (by decide) (of_decide_eq_true hc).1
  have hlower : c.isLower ≠ true := by
    intro hc
    have := (Bool.and_eq_true_iff.mp hc).1
    exact hlow (d := 'a') (by decide) (of_decide_eq_true this)
  have halpha : c.isAlpha ≠ true := by
    intro hc
    rcases Bool.or_eq_true_iff.mp hc with hc | hc
    · exact hupper hc
    · exact hlower hc
  have hne : c ≠ '_' := by
    rintro rfl
    exact absurd hhigh (by decide)
  simp [isNameStart, halpha, hne]

theorem isNamePart_of_isNameStart {c : Char} (h : isNameStart c = true) : isNamePart c = true := by
  simp only [isNameStart, Bool.or_eq_true] at h
  rcases h with h | h <;> simp [isNamePart, Char.isAlphanum, h]

theorem EndsWords.firstWord_cons {d : Char} (hd : EndsWords d) (s : List Char) : firstWord (d :: s) = [] := by
  rw [firstWord, if_neg]
  intro h
  rw [EndsWords, isNamePart_of_isNameStart h] at hd
  simp at hd

def isName (word : List Char) : Bool := (Func.lookup? word).isSome

@[simp] theorem isName_nil : isName [] = false := by decide

/-- Whether the first character of a text is hidden, `inside` a hidden name or at its beginning. -/
def hides (inside : Bool) : List Char → Bool
  | [] => false
  | c :: s => inside && isNamePart c || isName (firstWord (c :: s))

def maskWith (inside : Bool) : List Char → List Char
  | [] => []
  | c :: s =>
    (if hides inside (c :: s) then '_' else c) :: maskWith (hides inside (c :: s)) s

theorem maskFrom_eq_maskWith (s : List Char) :
    maskFrom 0 s = maskWith false s ∧
      maskFrom (s.takeWhile isNamePart).length s = maskWith true s := by
  induction s with
  | nil => exact ⟨rfl, rfl⟩
  | cons c s ih =>
    have hfirst : maskFrom 0 (c :: s) = maskWith false (c :: s) := by
      have hhides : hides false (c :: s) = (Func.lookup? (firstWord (c :: s))).isSome := by
        simp [hides, isName]
      rw [maskFrom, maskWith, hhides]
      split
      next h =>
        have hword : firstWord (c :: s) = c :: s.takeWhile isNamePart := by
          rw [firstWord]
          split
          next => rfl
          next hc =>
            rw [firstWord, if_neg hc] at h
            exact absurd h (by decide)
        rw [h, hword, List.length_cons, Nat.add_sub_cancel, ih.2]
      next h =>
        rw [ih.1, Bool.eq_false_iff.mpr h]
    refine ⟨hfirst, ?_⟩
    cases hc : isNamePart c with
    | true =>
      have hhides : hides true (c :: s) = true := by simp [hides, hc]
      rw [List.takeWhile_cons_of_pos hc, List.length_cons, maskFrom, ih.2, maskWith, hhides]
      rfl
    | false =>
      have hhides : ∀ inside, hides inside (c :: s) = false := by
        intro inside
        simp [hides, hc, EndsWords.firstWord_cons hc]
      rw [List.takeWhile_cons_of_neg (by simp [hc]), List.length_nil, hfirst, maskWith, maskWith, hhides,
        hhides]

theorem maskNames_eq_maskWith (s : List Char) : maskNames s = maskWith false s :=
  (maskFrom_eq_maskWith s).1

@[simp] theorem length_maskWith (inside : Bool) (s : List Char) : (maskWith inside s).length = s.length := by
  induction s generalizing inside with
  | nil => rfl
  | cons c s ih => simp [maskWith, ih]

@[simp] theorem length_maskNames (s : List Char) : (maskNames s).length = s.length :=
  length_maskFrom 0 s

@[simp] theorem maskNames_nil : maskNames [] = [] := rfl

theorem takeWhile_append_cons {p : Char → Bool} {d : Char} (hd : p d = false) (s t : List Char) :
    (s ++ d :: t).takeWhile p = s.takeWhile p := by
  induction s with
  | nil => simp [hd]
  | cons c s ih => simp only [List.cons_append, List.takeWhile_cons, ih]

theorem EndsWords.firstWord_append {d : Char} (hd : EndsWords d) (c : Char) (s t : List Char) :
    firstWord (c :: (s ++ d :: t)) = firstWord (c :: s) := by
  rw [firstWord, firstWord, takeWhile_append_cons hd]

theorem EndsWords.hides_cons {d : Char} (hd : EndsWords d) (inside : Bool) (s : List Char) :
    hides inside (d :: s) = false := by
  rw [EndsWords] at hd
  simp [hides, hd, EndsWords.firstWord_cons hd]

theorem EndsWords.maskWith_cons {d : Char} (hd : EndsWords d) (inside : Bool) (s : List Char) :
    maskWith inside (d :: s) = d :: maskWith false s := by
  rw [maskWith, hd.hides_cons]
  rfl

theorem EndsWords.maskWith_append {d : Char} (hd : EndsWords d) (inside : Bool) (s t : List Char) :
    maskWith inside (s ++ d :: t) = maskWith inside s ++ d :: maskWith false t := by
  induction s generalizing inside with
  | nil => exact hd.maskWith_cons inside t
  | cons c s ih =>
    have hhides : hides inside (c :: (s ++ d :: t)) = hides inside (c :: s) := by
      rw [hides, hides, hd.firstWord_append]
    rw [List.cons_append, maskWith, maskWith, hhides, ih, List.cons_append]

theorem EndsWords.maskNames_append {d : Char} (hd : EndsWords d) (s t : List Char) :
    maskNames (s ++ d :: t) = maskNames s ++ maskNames (d :: t) := by
  simp only [maskNames_eq_maskWith, hd.maskWith_append, hd.maskWith_cons]

theorem EndsWords.maskNames_cons {d : Char} (hd : EndsWords d) (s : List Char) :
    maskNames (d :: s) = d :: maskNames s := by
  simp only [maskNames_eq_maskWith, hd.maskWith_cons]

theorem endsWords_open : EndsWords '(' := by decide

theorem endsWords_close : EndsWords ')' := by decide

theorem endsWords_comma : EndsWords ',' := by decide

theorem endsWords_symbol (op : Op) : EndsWords op.symbol := by
  cases op <;> decide

theorem maskNames_name (f : Func) : maskNames f.name = List.replicate f.name.length '_' := by
  cases f <;> decide

theorem maskWith_of_not_isNameStart {s : List Char} (h : ∀ c ∈ s, isNameStart c = false) :
    maskWith false s = s := by
  induction s with
  | nil => rfl
  | cons c s ih =>
    obtain ⟨hc, hs⟩ := List.forall_mem_cons.mp h
    have hhides : hides false (c :: s) = false := by simp [hides, firstWord, hc]
    rw [maskWith, hhides, ih hs]
    rfl

end PlotFormula.Grammar
