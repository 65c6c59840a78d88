import PlotFormula.Proofs.Grammar.Indexed

/-! # Hidden names

A mask hides characters of names only, run by run. Of a run it hides the longest end that is a name of the
catalog, since a name reaches to the end of its run and what stands before it is looked at first. What is
hidden is no name any more, so nothing inside it is hidden for a second reason.
-/
namespace PlotFormula.Grammar

def IsCatalogName (word : List Char) : Prop := ∃ f : Func, f.name = word.map Char.toLower

theorem isName_iff {word : List Char} : isName word = true ↔ IsCatalogName word := by
  rw [isName, Func.lookup?, List.find?_isSome]
  constructor
  · rintro ⟨f, -, hf⟩
    exact ⟨f, of_decide_eq_true hf⟩
  · rintro ⟨f, hf⟩
    exact ⟨f, f.mem_all, decide_eq_true hf⟩

theorem isAlpha_of_toLower {c : Char} (h : c.toLower.isAlpha = true) : c.isAlpha = true := by
  by_cases hc : c.isUpper = true
  · exact Bool.or_eq_true_iff.mpr (.inl hc)
  · have hlower : c.toLower = c := dif_neg fun hcapital => hc (decide_eq_true hcapital)
    rwa [hlower] at h

theorem IsCatalogName.isAlpha {word : List Char} (h : IsCatalogName word) :
    ∀ c ∈ word, c.isAlpha = true := by
  obtain ⟨f, hf⟩ := h
  have hname : f.name.all Char.isAlpha = true := by
    cases f <;> decide
  intro c hc
  apply isAlpha_of_toLower
  apply List.all_eq_true.mp hname
  rw [hf]
  exact List.mem_map_of_mem hc

/-- Letters, digits and underscores between two texts, of which neither continues them. -/
structure IsRun (l run r : List Char) : Prop where
  part : ∀ c ∈ run, isNamePart c = true
  before : ∀ c ∈ l.getLast?, EndsWords c
  after : ∀ c ∈ r.head?, EndsWords c

theorem isRun_first {run : List Char} {d : Char} (hrun : run.all isNamePart = true) (hd : EndsWords d)
    (r : List Char) : IsRun [] run (d :: r) :=
  ⟨List.all_eq_true.mp hrun, by simp, by simpa using hd⟩

/-- A run cut before the longest of its ends that are names, or behind its last character if none is. -/
structure HiddenName (kept name : List Char) : Prop where
  isName : name ≠ [] → IsCatalogName name
  longest : ∀ u, u <:+ kept ++ name → IsCatalogName u → u.length ≤ name.length

theorem exists_hiddenName (run : List Char) : ∃ kept name, run = kept ++ name ∧ HiddenName kept name := by
  induction run with
  | nil =>
    refine ⟨[], [], rfl, fun h => absurd rfl h, ?_⟩
    intro u hu _
    exact hu.length_le
  | cons c s ih =>
    by_cases hc : Grammar.isName (c :: s) = true
    · exact ⟨[], c :: s, rfl, fun _ => isName_iff.mp hc, fun u hu _ => hu.length_le⟩
    · obtain ⟨kept, name, rfl, hname, hlongest⟩ := ih
      refine ⟨c :: kept, name, rfl, hname, ?_⟩
      intro u hu hcatalog
      rcases List.suffix_cons_iff.mp hu with rfl | hu
      · exact absurd (isName_iff.mpr hcatalog) hc
      · exact hlongest u hu hcatalog

theorem HiddenName.of_cons {c : Char} {kept name : List Char} (h : HiddenName (c :: kept) name) :
    HiddenName kept name :=
  ⟨h.isName, fun u hu => h.longest u (hu.trans (List.suffix_cons c (kept ++ name)))⟩

theorem firstWord_run {c : Char} {s : List Char} (h : ∀ d ∈ s, isNamePart d = true) :
    firstWord (c :: s) = if isNameStart c then c :: s else [] := by
  have hword : s.takeWhile isNamePart = s := by
    have hall := @List.takeWhile_append_of_pos _ isNamePart s [] h
    simpa using hall
  rw [firstWord, hword]

theorem hides_run {s : List Char} (h : ∀ d ∈ s, isNamePart d = true) : hides false s = isName s := by
  cases s with
  | nil => exact isName_nil.symm
  | cons c s =>
    rw [hides, Bool.false_and, Bool.false_or, firstWord_run (List.forall_mem_cons.mp h).2]
    split
    next => rfl
    next hstart =>
      have hnot : ¬ IsCatalogName (c :: s) := by
        intro hname
        have := hname.isAlpha c List.mem_cons_self
        simp [isNameStart, this] at hstart
      rw [isName_nil, Bool.eq_false_iff.mpr (mt isName_iff.mp hnot)]

theorem maskWith_inside {s : List Char} (h : ∀ d ∈ s, isNamePart d = true) :
    maskWith true s = List.replicate s.length '_' := by
  induction s with
  | nil => rfl
  | cons c s ih =>
    obtain ⟨hc, hs⟩ := List.forall_mem_cons.mp h
    have hhides : hides true (c :: s) = true := by simp [hides, hc]
    rw [maskWith, hhides, ih hs]
    rfl

theorem maskNames_run {kept name : List Char} (hname : HiddenName kept name)
    (hpart : ∀ c ∈ kept ++ name, isNamePart c = true) :
    maskNames (kept ++ name) = kept ++ List.replicate name.length '_' := by
  rw [maskNames_eq_maskWith]
  induction kept with
  | nil =>
    cases name with
    | nil => rfl
    | cons c s =>
      rw [List.nil_append] at hpart ⊢
      have hhides : hides false (c :: s) = true := by
        rw [hides_run hpart]
        exact isName_iff.mpr (hname.isName (List.cons_ne_nil c s))
      rw [maskWith, hhides, maskWith_inside (List.forall_mem_cons.mp hpart).2]
      rfl
  | cons c kept ih =>
    have hnot : ¬ IsCatalogName (c :: kept ++ name) := by
      intro hcatalog
      have := hname.longest _ (List.suffix_refl _) hcatalog
      simp only [List.cons_append, List.length_cons, List.length_append] at this
      omega
    have hhides : hides false (c :: kept ++ name) = false := by
      rw [hides_run hpart]
      exact Bool.eq_false_iff.mpr (mt isName_iff.mp hnot)
    rw [List.cons_append] at hhides ⊢
    rw [maskWith, hhides, ih hname.of_cons (List.forall_mem_cons.mp hpart).2]
    rfl

theorem maskNames_append_of_getLast? {l t : List Char} (h : ∀ c ∈ l.getLast?, EndsWords c) :
    maskNames (l ++ t) = maskNames l ++ maskNames t := by
  rcases List.eq_nil_or_concat l with rfl | ⟨u, d, rfl⟩
  · rfl
  · have hd : EndsWords d := h d (by simp)
    rw [List.concat_eq_append, List.append_assoc, List.singleton_append, hd.maskNames_append,
      hd.maskNames_cons, hd.maskNames_append, hd.maskNames_cons]
    simp

theorem maskNames_append_of_head? {t r : List Char} (h : ∀ c ∈ r.head?, EndsWords c) :
    maskNames (t ++ r) = maskNames t ++ maskNames r := by
  cases r with
  | nil => simp
  | cons d r => exact (h d rfl).maskNames_append t r

theorem IsRun.maskNames_eq {l kept name r : List Char} (hrun : IsRun l (kept ++ name) r)
    (hname : HiddenName kept name) :
    maskNames (l ++ (kept ++ name) ++ r) =
      maskNames l ++ (kept ++ List.replicate name.length '_') ++ maskNames r := by
  rw [maskNames_append_of_head? hrun.after, maskNames_append_of_getLast? hrun.before,
    maskNames_run hname hrun.part]

/-- The mask is as long as the text, hides of every run the longest end that is a name in any letter case, and
keeps every character that is in no run. The loop that reads its own half-masked text comes to the same mask. -/
theorem maskNames_hides_longest (s : List Char) :
    maskAt? s.length 0 s = some (maskNames s) ∧ (maskNames s).length = s.length ∧
      (∀ l run r, s = l ++ run ++ r → IsRun l run r → ∃ kept name, run = kept ++ name ∧ HiddenName kept name ∧
        maskNames s = maskNames l ++ (kept ++ List.replicate name.length '_') ++ maskNames r) ∧
      ∀ l c r, s = l ++ c :: r → EndsWords c → maskNames s = maskNames l ++ c :: maskNames r := by
  refine ⟨maskAt?_eq s, length_maskNames s, ?_, ?_⟩
  · rintro l run r rfl hrun
    obtain ⟨kept, name, rfl, hname⟩ := exists_hiddenName run
    exact ⟨kept, name, rfl, hname, hrun.maskNames_eq hname⟩
  · rintro l c r rfl hc
    rw [hc.maskNames_append, hc.maskNames_cons]

/-- Both `ArcSec` and `Sec` are names that the run ends with, and the longer one is hidden. -/
theorem maskNames_hides_longest_arcsec :
    IsRun [] "xArcSec".toList "(2)".toList ∧ EndsWords '(' ∧
      maskNames "xArcSec(2)".toList = "x______(2)".toList ∧
      (∃ kept name, "xArcSec".toList = kept ++ name ∧ HiddenName kept name ∧
        maskNames "xArcSec(2)".toList =
          maskNames [] ++ (kept ++ List.replicate name.length '_') ++ maskNames "(2)".toList) ∧
      maskNames "xArcSec(2)".toList = maskNames "xArcSec".toList ++ '(' :: maskNames "2)".toList := by
  have hrun : IsRun [] "xArcSec".toList "(2)".toList := isRun_first (by decide) endsWords_open _
  obtain ⟨-, -, hruns, hothers⟩ := maskNames_hides_longest "xArcSec(2)".toList
  exact ⟨hrun, endsWords_open, by decide, hruns _ _ _ rfl hrun, hothers _ _ _ rfl endsWords_open⟩

end PlotFormula.Grammar
