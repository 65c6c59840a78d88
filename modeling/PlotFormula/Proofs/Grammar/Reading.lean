import PlotFormula.Grammar.Parse
import PlotFormula.Proofs.Grammar.Forms
import PlotFormula.Proofs.Text.LowerCase

/-! # Reading is deriving

The parts of a text that is written out are written out, and they weigh less than the text. So by induction
on the weight a text reads as a tree exactly if the grammar derives the tree for it.
-/
namespace PlotFormula.Grammar
variable {vars s : List Char} {a : Expr Float}

theorem isLower_of_mem_compact {text : List Char} {c : Char} (h : c ∈ compact text) :
    Text.IsLower c ∧ c ≠ ' ' := by
  obtain ⟨hc, hspace⟩ := List.mem_filter.mp h
  exact ⟨Text.isLower_of_mem_lowerCase hc, by simpa using hspace⟩

theorem compact_of_isLower (h : ∀ c ∈ s, Text.IsLower c ∧ c ≠ ' ') : compact s = s := by
  rw [compact, Text.lowerCase_of_isLower fun c hc => (h c hc).1]
  apply List.filter_eq_self.mpr
  intro c hc
  simpa using (h c hc).2

theorem compact_compact (text : List Char) : compact (compact text) = compact text :=
  compact_of_isLower fun _ => isLower_of_mem_compact

theorem lower_of_ascii {c : Char} (hc : c.toNat < 128) (hupper : c.toLower = c) (hspace : c ≠ ' ') :
    Text.IsLower c ∧ c ≠ ' ' :=
  ⟨by rw [Text.IsLower, Text.lowerChar_of_ascii hc, hupper], hspace⟩

theorem lower_symbol (op : Op) : Text.IsLower op.symbol ∧ op.symbol ≠ ' ' := by
  cases op <;> exact lower_of_ascii (by decide) (by decide) (by decide)

theorem ascii_name (f : Func) : ∀ c ∈ f.name, c.toNat < 128 ∧ c.toLower = c ∧ c ≠ ' ' := by
  have hall : (f.name.all fun c => c.toNat < 128 ∧ c.toLower = c ∧ c ≠ ' ') = true := by
    cases f <;> decide
  intro c hc
  exact of_decide_eq_true (List.all_eq_true.mp hall c hc)

theorem lower_name (f : Func) : ∀ c ∈ f.name, Text.IsLower c ∧ c ≠ ' ' := by
  intro c hc
  obtain ⟨hascii, hupper, hspace⟩ := ascii_name f c hc
  exact lower_of_ascii hascii hupper hspace

theorem lower_of_digit {c : Char} (h : c.isDigit = true ∨ c = '.') : Text.IsLower c ∧ c ≠ ' ' := by
  rcases h with h | rfl
  · obtain ⟨-, hhigh⟩ := Char.isDigit_iff_toNat.mp h
    have hnine : c.toNat ≤ 57 := hhigh
    have hupper : ¬ (c.val ≥ 'A'.val ∧ c.val ≤ 'Z'.val) := by
      rintro ⟨ha, -⟩
      have : 65 ≤ c.toNat := UInt32.le_iff_toNat_le.mp ha
      omega
    refine lower_of_ascii (by omega) (dif_neg hupper) ?_
    rintro rfl
    exact absurd h (by decide)
  · exact lower_of_ascii (by decide) (by decide) (by decide)

theorem compact_append {d : Char} (hd : Text.IsBoundary d) (hspace : d ≠ ' ') (s t : List Char) :
    compact (s ++ d :: t) = compact s ++ d :: compact t := by
  rw [compact, hd.lowerCase_append, List.filter_append, List.filter_cons_of_pos (by simpa using hspace)]
  rfl

theorem isSmall_compact (text : List Char) : IsSmall (compact text) := by
  intro c hc
  exact (isLower_of_mem_compact hc).1.toLower_eq

theorem mem_strip {c : Char} (h : c ∈ strip s) : c ∈ s := by
  fun_induction strip s with
  | case1 s inner hs ih =>
    rw [eq_of_unwrap? hs]
    exact List.mem_cons_of_mem _ (List.mem_append_left _ (ih h))
  | case2 => exact h

theorem mem_normal {c : Char} (h : c ∈ normal vars s) : c ∈ s ∨ c = '*' := by
  rcases mem_writeProducts h with h | h
  · exact .inl (mem_strip h)
  · exact .inr h

theorem mem_joinArguments {ps : List (List Char)} {p : List Char} (hp : p ∈ ps) {c : Char} (hc : c ∈ p) :
    c ∈ joinArguments ps := by
  match ps with
  | [q] =>
    obtain rfl := List.mem_singleton.mp hp
    exact hc
  | q :: r :: ps =>
    rw [joinArguments]
    rcases List.mem_cons.mp hp with rfl | hp
    · exact List.mem_append_left _ hc
    · exact List.mem_append_right _ (List.mem_cons_of_mem _ (mem_joinArguments hp hc))

theorem eq_or_mem_of_mem_joinArguments {ps : List (List Char)} {c : Char} (hc : c ∈ joinArguments ps) :
    c = ',' ∨ ∃ p ∈ ps, c ∈ p := by
  match ps with
  | [p] => exact .inr ⟨p, List.mem_singleton_self p, hc⟩
  | p :: q :: ps =>
    rw [joinArguments, List.mem_append, List.mem_cons] at hc
    rcases hc with hc | rfl | hc
    · exact .inr ⟨p, List.mem_cons_self .., hc⟩
    · exact .inl rfl
    · rcases eq_or_mem_of_mem_joinArguments hc with rfl | ⟨r, hr, hc⟩
      · exact .inl rfl
      · exact .inr ⟨r, List.mem_cons_of_mem _ hr, hc⟩

theorem written_joinArguments (hvars : IsPlain vars) {ps : List (List Char)} :
    Written vars (joinArguments ps) ↔ ∀ p ∈ ps, Written vars p := by
  match ps with
  | [] => simp [joinArguments, written_nil]
  | [p] => simp [joinArguments]
  | p :: q :: ps =>
    rw [joinArguments, hvars.separates_comma.written_append, written_joinArguments hvars]
    exact List.forall_mem_cons.symm

namespace Form

/-- What a form says about the text that it is the form of. -/
def Fits (s : List Char) : Form → Prop
  | negation t => s = '-' :: t
  | operation r => r.whole = s
  | call _ args => args = [] ∨ ∃ word, s = word ++ ('(' :: joinArguments args ++ [')'])
  | _ => True

theorem fits_ofText (vars s : List Char) : (ofText vars s).Fits s := by
  refine ofText_cases vars s ?blank ?operation ?negation ?call ?brokenCall ?slot ?number ?unknown
  case operation => exact fun t r h => whole_split? h
  case negation => exact fun t h => h
  case call => exact fun f args _ h => h.imp_right fun h => ⟨firstWord s, h⟩
  all_goals intros; trivial

theorem Fits.mem {form : Form} (h : form.Fits s) {p : List Char} (hp : p ∈ form.parts) {c : Char}
    (hc : c ∈ p) : c ∈ s := by
  cases form with
  | negation t =>
    obtain rfl := List.mem_singleton.mp hp
    obtain rfl := h
    exact List.mem_cons_of_mem _ hc
  | operation r =>
    obtain rfl := h
    simp only [parts, List.mem_cons, List.not_mem_nil, or_false] at hp
    rcases hp with rfl | rfl <;> simp [Split.whole, hc]
  | call f args =>
    rcases h with rfl | ⟨word, rfl⟩
    · simp [parts] at hp
    · have : c ∈ joinArguments args := mem_joinArguments hp hc
      simp [this]
  | _ => simp [parts] at hp

theorem Fits.written (hvars : IsPlain vars) {form : Form} (h : form.Fits s) (hs : Written vars s)
    {p : List Char} (hp : p ∈ form.parts) : Written vars p := by
  cases form with
  | negation t =>
    obtain rfl := List.mem_singleton.mp hp
    obtain rfl := h
    exact ((hvars.separates_symbol .subtract).written_append (s := []).mp hs).2
  | operation r =>
    obtain rfl := h
    obtain ⟨hleft, hright⟩ := (hvars.separates_symbol r.op).written_append.mp hs
    simp only [parts, List.mem_cons, List.not_mem_nil, or_false] at hp
    rcases hp with rfl | rfl <;> assumption
  | call f args =>
    rcases h with rfl | ⟨word, rfl⟩
    · simp [parts] at hp
    · have hparens := (written_append_cons endsWords_open).mp hs |>.2.1
      exact (written_joinArguments hvars).mp (hvars.shielded.written_parens.mp hparens) p hp
  | _ => simp [parts] at hp

end Form

theorem isLower_of_mem (hs : compact s = s) {c : Char} (h : c ∈ s ∨ c = '*') :
    Text.IsLower c ∧ c ≠ ' ' := by
  rcases h with h | rfl
  · rw [← hs] at h
    exact isLower_of_mem_compact h
  · exact lower_symbol .multiply

theorem isLower_of_mem_normal (hs : compact s = s) {c : Char} (h : c ∈ normal vars s) :
    Text.IsLower c ∧ c ≠ ' ' :=
  isLower_of_mem hs (mem_normal h)

theorem compact_strip (hs : compact s = s) : compact (strip s) = strip s :=
  compact_of_isLower fun _ hc => isLower_of_mem hs (.inl (mem_strip hc))

theorem compact_writeProducts (hs : compact s = s) :
    compact (writeProducts vars s) = writeProducts vars s :=
  compact_of_isLower fun _ hc => isLower_of_mem hs (mem_writeProducts hc)

theorem compact_normal (hs : compact s = s) : compact (normal vars s) = normal vars s :=
  compact_of_isLower fun _ => isLower_of_mem_normal hs

theorem compact_of_mem_parts (hs : compact s = s) {p : List Char}
    (hp : p ∈ (Form.ofText vars (normal vars s)).parts) : compact p = p :=
  compact_of_isLower fun _ hc => isLower_of_mem_normal hs ((Form.fits_ofText vars _).mem hp hc)

theorem weight_lt_of_mem_parts_normal {p : List Char} (hp : p ∈ (Form.ofText vars (normal vars s)).parts) :
    weight p < weight s :=
  calc weight p < (Form.ofText vars (normal vars s)).weight := Form.weight_lt_of_mem_parts hp
    _ ≤ weight (normal vars s) := Form.weight_ofText vars (normal vars s)
    _ ≤ weight s := weight_normal vars s

/-- What the parts of a text hand on to the text holds of every text, since they weigh less. -/
theorem induction_parts (vars : List Char) {motive : List Char → Prop}
    (step : ∀ s, (∀ p ∈ (Form.ofText vars (normal vars s)).parts, motive p) → motive s) (s : List Char) :
    motive s := by
  induction hw : weight s using Nat.strongRecOn generalizing s with
  | ind n ih =>
    subst hw
    exact step s fun p hp => ih (weight p) (weight_lt_of_mem_parts_normal hp) p rfl

def Reads (vars s : List Char) (a : Expr Float) : Prop := (parsePart vars s).result = .ok a

theorem result_parseParts {args : List (List Char)} {as : List (Expr Float)} :
    (parseParts vars args).result = .ok as ↔ List.Forall₂ (Reads vars) args as := by
  induction args generalizing as with
  | nil => rw [parseParts, Attempt.result_pure, List.forall₂_nil_left_iff, Except.ok.injEq, eq_comm]
  | cons s args ih =>
    rw [parseParts, Attempt.result_bind_eq_ok, List.forall₂_cons_left_iff]
    constructor
    · rintro ⟨b, hb, h⟩
      obtain ⟨bs, hbs, h⟩ := Attempt.result_bind_eq_ok.mp h
      exact ⟨b, bs, hb, ih.mp hbs, (Except.ok.inj h).symm⟩
    · rintro ⟨b, bs, hb, hbs, rfl⟩
      exact ⟨b, hb, Attempt.result_bind_eq_ok.mpr ⟨bs, ih.mpr hbs, rfl⟩⟩

theorem call?_eq_ok_iff {f : Func} {as : List (Expr Float)} :
    Expr.call? f as = .ok a ↔ f.arity.accepts as.length = true ∧ a = .call f as := by
  rw [Expr.call?]
  by_cases hf : f.arity.accepts as.length = true
  · rw [if_pos hf, Except.ok.injEq, eq_comm]
    simp [hf]
  · rw [if_neg hf]
    simp [hf]

theorem reads_iff_means :
    Reads vars s a ↔ (Form.ofText vars (normal vars s)).Means (Reads vars) a := by
  rw [Reads, parsePart_eq, Attempt.note_bind]
  dsimp only
  cases Form.ofText vars (normal vars s) with
  | negation t =>
    simp only [Attempt.result_bind_eq_ok, Attempt.result_pure, Except.ok.injEq]
    exact exists_congr fun x => and_congr_right fun _ => eq_comm
  | operation r =>
    simp only [Attempt.note_bind, Attempt.result_bind_eq_ok, Attempt.result_pure, Except.ok.injEq]
    constructor
    · rintro ⟨x, hx, y, hy, h⟩
      exact ⟨x, y, hx, hy, h.symm⟩
    · rintro ⟨x, y, hx, hy, h⟩
      exact ⟨x, hx, y, hy, h.symm⟩
  | call f args =>
    simp only [Attempt.result_bind_eq_ok, Attempt.result_ofExcept, result_parseParts, call?_eq_ok_iff]
    exact Iff.rfl
  | slot i =>
    rw [Attempt.result_pure, Except.ok.injEq, eq_comm]
    exact Iff.rfl
  | number x =>
    rw [Attempt.result_pure, Except.ok.injEq, eq_comm]
    exact Iff.rfl
  | _ => simp [Form.Means]

/-- Induction on a reading. What the trees of the parts hand on to the tree of a text holds of every tree that
is read, since the parts weigh less than the text. -/
theorem Reads.induction {P : List Char → Expr Float → Prop}
    (step : ∀ s a, (Form.ofText vars (normal vars s)).Means (fun t b => Reads vars t b ∧ P t b) a → P s a)
    (h : Reads vars s a) : P s a := by
  induction s using induction_parts vars generalizing a with
  | step s ih =>
    refine step s a ((Form.means_congr ?_ a).mp (reads_iff_means.mp h))
    exact fun t ht b => ⟨fun hb => ⟨hb, ih t ht hb⟩, And.left⟩

theorem parsePart_congr {t : List Char} (h : normal vars s = normal vars t) :
    parsePart vars s = parsePart vars t := by
  rw [parsePart_eq, parsePart_eq, h]

/-- A text that is written out reads as the trees that the grammar derives for it. -/
theorem reads_iff_derives (hvars : IsPlain vars) (hwritten : Written vars s) (hsmall : IsSmall s) :
    Reads vars s a ↔ Derives vars (.chain .additive) s a := by
  induction hw : weight s using Nat.strongRecOn generalizing s a with
  | ind n ih =>
    have hstrip := hvars.shielded.written_strip hwritten
    have hsmall' : IsSmall (strip s) := fun c hc => hsmall c (mem_strip hc)
    have hfits := Form.fits_ofText vars (strip s)
    have hparts : ∀ p ∈ (Form.ofText vars (strip s)).parts, ∀ b,
        Reads vars p b ↔ Derives vars (.chain .additive) p b := by
      intro p hp b
      have h₁ := Form.weight_lt_of_mem_parts hp
      have h₂ := Form.weight_ofText vars (strip s)
      have h₃ := weight_strip s
      refine ih (weight p) (by omega) (hfits.written hvars hstrip hp) ?_ rfl
      intro c hc
      exact hsmall' c (hfits.mem hp hc)
    rw [reads_iff_means, hvars.shielded.normal_eq_strip hwritten, Form.means_congr hparts,
      ← Derives.iff_means hvars hsmall' (unwrap?_strip s), Derives.strip_iff hvars]

theorem isSmall_writeProducts (h : IsSmall s) : IsSmall (writeProducts vars s) := by
  intro c hc
  rcases mem_writeProducts hc with hc | rfl
  · exact h c hc
  · decide

theorem isSmall_normal (h : IsSmall s) : IsSmall (normal vars s) :=
  isSmall_writeProducts fun c hc => h c (mem_strip hc)

theorem reads_iff_derives_writeProducts (hvars : IsPlain vars) (hsmall : IsSmall s) :
    Reads vars s a ↔ Derives vars (.chain .additive) (writeProducts vars s) a := by
  rw [Reads, ← parsePart_congr (hvars.shielded.normal_writeProducts s)]
  exact reads_iff_derives hvars (hvars.shielded.written_writeProducts s) (isSmall_writeProducts hsmall)

theorem reads_iff_derives_normal (hvars : IsPlain vars) (hsmall : IsSmall s) :
    Reads vars s a ↔ Derives vars (.chain .additive) (normal vars s) a := by
  rw [Reads, ← parsePart_congr (hvars.shielded.normal_normal s)]
  exact reads_iff_derives hvars (hvars.shielded.written_writeProducts _) (isSmall_normal hsmall)

theorem result_tryParse (vars text : List Char) :
    (tryParse vars text).result = (parsePart vars (compact text)).result := rfl

theorem result_tryParse_normal (hvars : Shielded vars) (hs : compact s = s) :
    (tryParse vars (normal vars s)).result = (parsePart vars s).result := by
  rw [result_tryParse, compact_normal hs, parsePart_congr (hvars.normal_normal s)]

theorem result_tryParse_congr {t u : List Char} (h : normal vars (compact t) = normal vars (compact u)) :
    (tryParse vars t).result = (tryParse vars u).result := by
  rw [result_tryParse, result_tryParse, parsePart_congr h]

/-- The normal text of a text is its own normal text, and it is read as the text is. Nor does it matter
which of the steps to it have been taken by hand: capitals and spaces, the enclosing parentheses, or the
products that were implied. For a table with a star see the note at `isVariable`. -/
theorem tryParse_normal (hvars : Shielded vars) (text : List Char) :
    normal vars (compact (normal vars (compact text))) = normal vars (compact text) ∧
    (tryParse vars (normal vars (compact text))).result = (tryParse vars text).result ∧
    (tryParse vars (compact text)).result = (tryParse vars text).result ∧
    (tryParse vars (strip (compact text))).result = (tryParse vars text).result ∧
    (tryParse vars (writeProducts vars (compact text))).result = (tryParse vars text).result := by
  have hcompact := compact_compact text
  have hnormal : normal vars (compact (normal vars (compact text))) = normal vars (compact text) := by
    rw [compact_normal hcompact, hvars.normal_normal]
  refine ⟨hnormal, result_tryParse_congr hnormal, ?_, ?_, ?_⟩
  · exact result_tryParse_congr (by rw [hcompact])
  · exact result_tryParse_congr (by rw [compact_strip hcompact, normal_strip])
  · exact result_tryParse_congr (by rw [compact_writeProducts hcompact, hvars.normal_writeProducts])

/-- The star brings the name `pi` to light, which the first mask does not hide. -/
theorem tryParse_normal_pix :
    Shielded ['i', 'x'] ∧ normal ['i', 'x'] (compact "(P iX)".toList) = "pi*x".toList ∧
      normal ['i', 'x'] (compact "pi*x".toList) = "pi*x".toList ∧
      (tryParse ['i', 'x'] "pi*x".toList).result = .ok (.binary .multiply (.call .pi []) (.var 1)) ∧
      (tryParse ['i', 'x'] "(P iX)".toList).result = .ok (.binary .multiply (.call .pi []) (.var 1)) := by
  have hvars : Shielded ['i', 'x'] := ⟨by decide, by decide, by decide⟩
  have htext : normal ['i', 'x'] (compact "(P iX)".toList) = "pi*x".toList := by decide +kernel
  have hread : (tryParse ['i', 'x'] "(P iX)".toList).result =
      .ok (.binary .multiply (.call .pi []) (.var 1)) := by decide +kernel
  obtain ⟨hagain, hsame, -⟩ := tryParse_normal hvars "(P iX)".toList
  rw [htext] at hagain hsame
  exact ⟨hvars, htext, hagain, hsame.trans hread, hread⟩

/-- A text is read exactly if the grammar derives a tree for its normal text, and then that tree is the
only one derived. -/
theorem tryParse_ok_iff_derives (hvars : IsPlain vars) (text : List Char) (a : Expr Float) :
    ((tryParse vars text).result = .ok a ↔
      Derives vars (.chain .additive) (normal vars (compact text)) a) ∧
    (Derives vars (.chain .additive) (normal vars (compact text)) a →
      ∀ b, Derives vars (.chain .additive) (normal vars (compact text)) b → b = a) := by
  have hreads (b : Expr Float) := reads_iff_derives_normal (a := b) hvars (isSmall_compact text)
  refine ⟨hreads a, ?_⟩
  intro ha b hb
  have hok := ((hreads b).mpr hb).symm.trans ((hreads a).mpr ha)
  exact Except.ok.inj hok

theorem tryParse_ok_iff_derives_max :
    IsPlain ['x'] ∧ normal ['x'] (compact "2X - Max(.5, -X)^3".toList) = "2*x-max(.5,-x)^3".toList ∧
      (tryParse ['x'] "2X - Max(.5, -X)^3".toList).result =
        .ok (.binary .subtract (.binary .multiply (.const 2) (.var 0))
          (.binary .power (.call .max [.const 0.5, .neg (.var 0)]) (.const 3))) ∧
      ∀ b, Derives ['x'] (.chain .additive) "2*x-max(.5,-x)^3".toList b ↔
        b = .binary .subtract (.binary .multiply (.const 2) (.var 0))
          (.binary .power (.call .max [.const 0.5, .neg (.var 0)]) (.const 3)) := by
  have hplain : IsPlain ['x'] := by decide
  have htext : normal ['x'] (compact "2X - Max(.5, -X)^3".toList) = "2*x-max(.5,-x)^3".toList := by
    decide +kernel
  have hok : (tryParse ['x'] "2X - Max(.5, -X)^3".toList).result =
      .ok (.binary .subtract (.binary .multiply (.const 2) (.var 0))
        (.binary .power (.call .max [.const 0.5, .neg (.var 0)]) (.const 3))) := by
    decide +kernel
  obtain ⟨hiff, hunique⟩ := tryParse_ok_iff_derives hplain "2X - Max(.5, -X)^3".toList _
  have hderives := hiff.mp hok
  have honly := hunique hderives
  rw [htext] at hderives honly
  exact ⟨hplain, htext, hok, fun b => ⟨honly b, fun hb => hb ▸ hderives⟩⟩

end PlotFormula.Grammar
