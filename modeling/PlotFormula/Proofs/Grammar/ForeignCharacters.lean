import PlotFormula.Proofs.Grammar.Reading

/-! # Foreign characters

A character that is neither in ASCII nor in the table has no meaning in a formula. So it does not matter which of
them a text has: where they are replaced by others, a text is read in the same steps and to the same end, and the
messages and errors name the texts with the characters replaced.
-/
namespace PlotFormula

def ParseError.mapText (f : Char → Char) : ParseError → ParseError
  | malformedCall t => malformedCall (t.map f)
  | unrecognizedToken t => unrecognizedToken (t.map f)
  | e => e

def Event.mapText (f : Char → Char) : Event → Event
  | parsing t => parsing (t.map f)
  | normalized t => normalized (t.map f)
  | splitting position op => splitting position op
  | rejectedExpression t e => rejectedExpression (t.map f) (e.mapText f)
  | rejectedNumber t e => rejectedNumber (t.map f) (e.mapText f)

namespace Attempt
variable {β γ : Type} (f : Char → Char)

/-- The computation with the characters replaced in its messages and in its error. -/
def mapTexts (a : Attempt ParseError β) : Attempt ParseError β :=
  ⟨a.log.map (Event.mapText f), a.result.mapError (ParseError.mapText f)⟩

theorem mapTexts_bind (a : Attempt ParseError β) (g : β → Attempt ParseError γ) :
    (a >>= g).mapTexts f = a.mapTexts f >>= fun b => (g b).mapTexts f := by
  obtain ⟨log, _ | b⟩ := a
  · rfl
  · show (⟨(log ++ (g b).log).map (Event.mapText f), _⟩ : Attempt ParseError γ) =
      ⟨log.map (Event.mapText f) ++ (g b).log.map (Event.mapText f), _⟩
    rw [List.map_append]
    rfl

theorem mapTexts_pure (b : β) : (pure b : Attempt ParseError β).mapTexts f = pure b := rfl

theorem mapTexts_call? {α : Type} (g : Func) (args : List (Expr α)) :
    (ofExcept (Expr.call? g args)).mapTexts f = ofExcept (Expr.call? g args) := by
  rw [Expr.call?]
  split <;> rfl

end Attempt

namespace Grammar
variable {vars : List Char} {f : Char → Char}

/-- Neither in ASCII nor in the table. -/
structure IsForeign (vars : List Char) (c : Char) : Prop where
  not_ascii : ¬ c.toNat < 128
  not_mem : c ∉ vars

namespace IsForeign
variable {c : Char} (h : IsForeign vars c)
include h

theorem ne {d : Char} (hd : d.toNat < 128 ∨ d ∈ vars) : c ≠ d := by
  rintro rfl
  exact hd.elim h.not_ascii h.not_mem

theorem endsWords : EndsWords c := by
  have hle {d e : Char} (he : e.toNat < 128) : ¬ (d.val ≤ c.val ∧ c.val ≤ e.val) := by
    rintro ⟨-, hc⟩
    exact h.not_ascii (Nat.lt_of_le_of_lt (UInt32.le_iff_toNat_le.mp hc) he)
  have hupper : c.isUpper = false := decide_eq_false (hle (d := 'A') (e := 'Z') (by decide))
  have hrange {d e : Char} (he : e.toNat < 128) : (decide (d.val ≤ c.val) && decide (c.val ≤ e.val)) = false := by
    rw [← Bool.decide_and]
    exact decide_eq_false (hle he)
  have hlower : c.isLower = false := hrange (d := 'a') (e := 'z') (by decide)
  have hdigit : c.isDigit = false := hrange (d := '0') (e := '9') (by decide)
  have halpha : c.isAlpha = false := Bool.or_eq_false_iff.mpr ⟨hupper, hlower⟩
  simp [EndsWords, isNamePart, Char.isAlphanum, halpha, hdigit, h.ne (d := '_') (.inl (by decide))]

theorem isNameStart_eq : isNameStart c = false := by
  by_contra hstart
  have hends := h.endsWords
  rw [EndsWords, isNamePart_of_isNameStart (by simpa using hstart)] at hends
  simp at hends

theorem isDigit_eq : c.isDigit = false := by
  by_contra hdigit
  have hends := h.endsWords
  simp [EndsWords, isNamePart, Char.isAlphanum, hdigit] at hends

theorem bracket_eq : bracket c = 0 :=
  bracket_of_ne (h.ne (.inl (by decide))) (h.ne (.inl (by decide)))

theorem ofSymbol?_eq : Op.ofSymbol? c = none := by
  cases hop : Op.ofSymbol? c with
  | none => rfl
  | some op =>
    have hsymbol : op.symbol.toNat < 128 := by cases op <;> decide
    exact absurd (Op.symbol_of_ofSymbol? hop).symm (h.ne (.inl hsymbol))

theorem isVariable_eq : isVariable vars c = false :=
  isVariable_eq_false h.not_mem

end IsForeign

/-- Replaces some foreign characters by foreign characters. -/
def ReplacesForeign (vars : List Char) (f : Char → Char) : Prop :=
  ∀ c, f c = c ∨ IsForeign vars c ∧ IsForeign vars (f c)

namespace ReplacesForeign
variable (hf : ReplacesForeign vars f)
include hf

/-- What is the same for all foreign characters is not changed. -/
theorem congr {β : Type} {p : Char → β} {b : β}
    (hp : ∀ c, IsForeign vars c → p c = b) (c : Char) : p (f c) = p c := by
  rcases hf c with h | ⟨hc, hfc⟩
  · rw [h]
  · rw [hp _ hc, hp _ hfc]

theorem eq_iff {d : Char} (hd : d.toNat < 128 ∨ d ∈ vars) (c : Char) : f c = d ↔ c = d :=
  Iff.of_eq (hf.congr (p := (· = d)) (fun _ h => eq_false (h.ne hd)) c)

theorem map_eq_some_iff {d : Char} (hd : d.toNat < 128) {o : Option Char} : o.map f = some d ↔ o = some d := by
  cases o <;> simp [hf.eq_iff (.inl hd)]

theorem apply_beq {d : Char} (hd : d.toNat < 128) (c : Char) : (f c == d) = (c == d) := by
  rw [Bool.eq_iff_iff, beq_iff_eq, beq_iff_eq, hf.eq_iff (.inl hd)]

theorem apply_eq {d : Char} (hd : d.toNat < 128) : f d = d :=
  (hf.eq_iff (.inl hd) d).mpr rfl

theorem isNamePart_apply (c : Char) : isNamePart (f c) = isNamePart c :=
  hf.congr (fun _ h => h.endsWords) c

theorem isNameStart_apply (c : Char) : isNameStart (f c) = isNameStart c :=
  hf.congr (fun _ h => h.isNameStart_eq) c

theorem isDigit_apply (c : Char) : (f c).isDigit = c.isDigit :=
  hf.congr (fun _ h => h.isDigit_eq) c

theorem bracket_apply (c : Char) : bracket (f c) = bracket c :=
  hf.congr (fun _ h => h.bracket_eq) c

theorem ofSymbol?_apply (c : Char) : Op.ofSymbol? (f c) = Op.ofSymbol? c :=
  hf.congr (fun _ h => h.ofSymbol?_eq) c

theorem isVariable_apply (c : Char) : isVariable vars (f c) = isVariable vars c :=
  hf.congr (fun _ h => h.isVariable_eq) c

theorem idxOf?_apply (c : Char) : vars.idxOf? (f c) = vars.idxOf? c :=
  hf.congr (fun _ h => List.idxOf?_eq_none_iff.mpr h.not_mem) c

theorem map_eq_self {s : List Char} (h : ∀ c ∈ s, c.toNat < 128 ∨ (f c).toNat < 128) : s.map f = s := by
  have hsame : ∀ c ∈ s, f c = c := by
    intro c hc
    refine (hf c).resolve_right ?_
    rintro ⟨hforeign, hforeign'⟩
    exact (h c hc).elim hforeign.not_ascii hforeign'.not_ascii
  rw [List.map_congr_left hsame, List.map_id']

theorem apply_eq_of_isNamePart {c : Char} (hc : isNamePart c = true) : f c = c := by
  refine (hf c).resolve_right ?_
  rintro ⟨hforeign, -⟩
  rw [hforeign.endsWords] at hc
  simp at hc

theorem staysOpen_map (k : Int) (s : List Char) : staysOpen k (s.map f) = staysOpen k s := by
  induction s generalizing k with
  | nil => rfl
  | cons c s ih => rw [List.map_cons, staysOpen, staysOpen, hf.bracket_apply, ih]

theorem keepsParens_map : KeepsParens (List.map f) where
  parens s := by
    rw [List.map_append, List.map_cons, List.map_singleton, hf.apply_eq (by decide), hf.apply_eq (by decide)]
  head?_iff s := by rw [List.head?_map, hf.map_eq_some_iff (by decide)]
  getLast?_iff s := by rw [List.getLast?_map, hf.map_eq_some_iff (by decide)]
  staysOpen_eq s := by rw [← List.map_reverse, hf.staysOpen_map]

theorem firstWord_map (s : List Char) : firstWord (s.map f) = firstWord s := by
  cases s with
  | nil => rfl
  | cons c s =>
    have hpart : isNamePart ∘ f = isNamePart := funext hf.isNamePart_apply
    have hword : (s.takeWhile isNamePart).map f = s.takeWhile isNamePart :=
      (List.map_congr_left fun d hd => hf.apply_eq_of_isNamePart (List.all_eq_true.mp List.all_takeWhile d hd)).trans
        (List.map_id' _)
    rw [List.map_cons, firstWord, firstWord, hf.isNameStart_apply, List.takeWhile_map, hpart, hword]
    split
    next hstart => rw [hf.apply_eq_of_isNamePart (isNamePart_of_isNameStart hstart)]
    next => rfl

theorem hides_map (inside : Bool) (s : List Char) : hides inside (s.map f) = hides inside s := by
  cases s with
  | nil => rfl
  | cons c s =>
    have hword := hf.firstWord_map (c :: s)
    rw [List.map_cons] at hword ⊢
    rw [hides, hides, hword, hf.isNamePart_apply]

theorem maskWith_map (inside : Bool) (s : List Char) :
    maskWith inside (s.map f) = (maskWith inside s).map f := by
  induction s generalizing inside with
  | nil => rfl
  | cons c s ih =>
    have hhides := hf.hides_map inside (c :: s)
    rw [List.map_cons] at hhides ⊢
    rw [maskWith, maskWith, hhides, ih, List.map_cons]
    split
    next => rw [hf.apply_eq (by decide)]
    next => rfl

theorem maskNames_map (s : List Char) : maskNames (s.map f) = (maskNames s).map f := by
  rw [maskNames_eq_maskWith, maskNames_eq_maskWith, hf.maskWith_map]

theorem impliesProduct_apply (c d : Char) : impliesProduct vars (f c) (f d) = impliesProduct vars c d := by
  simp only [impliesProduct, isFactor, hf.isDigit_apply, hf.isVariable_apply, hf.apply_beq (d := '.') (by decide),
    hf.apply_beq (d := '(') (by decide), hf.apply_beq (d := ')') (by decide), hf.apply_beq (d := 'x') (by decide)]

theorem insertProducts_map (s : List (Char × Char)) :
    insertProducts vars (s.map (Prod.map f f)) = (insertProducts vars s).map f := by
  fun_induction insertProducts vars s with
  | case1 => rfl
  | case2 p => rfl
  | case3 p q s hproduct ih =>
    rw [List.map_cons, List.map_cons, insertProducts, Prod.map_snd, Prod.map_snd, hf.impliesProduct_apply,
      if_pos hproduct, ← List.map_cons, ih, List.map_cons, List.map_cons,
      hf.apply_eq (d := '*') (by decide)]
    rfl
  | case4 p q s hproduct ih =>
    rw [List.map_cons, List.map_cons, insertProducts, Prod.map_snd, Prod.map_snd, hf.impliesProduct_apply,
      if_neg hproduct, ← List.map_cons, ih, List.map_cons]
    rfl

theorem normal_map (s : List Char) : normal vars (s.map f) = (normal vars s).map f := by
  rw [normal, writeProducts, hf.keepsParens_map.strip_eq, hf.maskNames_map, List.zip_map, hf.insertProducts_map]
  rfl

end ReplacesForeign

def Split.mapTexts (f : Char → Char) (r : Split) : Split := ⟨r.left.map f, r.op, r.right.map f⟩

theorem Split.position_mapTexts (f : Char → Char) (r : Split) : (r.mapTexts f).position = r.position :=
  List.length_map f

def Form.mapTexts (f : Char → Char) : Form → Form
  | negation s => negation (s.map f)
  | operation r => operation (r.mapTexts f)
  | call g args => call g (args.map (List.map f))
  | form => form

namespace ReplacesForeign
variable (hf : ReplacesForeign vars f)
include hf

theorem isBinaryAfter_map (c : Char) (before : List Char) :
    isBinaryAfter (f c) (before.map f) = isBinaryAfter c before := by
  cases before with
  | nil => rfl
  | cons d before =>
    have hoperator : isOperator (f d) = isOperator d := by rw [isOperator, isOperator, hf.ofSymbol?_apply]
    have hsign : isExponentSign (f c) (f d :: before.map f) = isExponentSign c (d :: before) := by
      by_cases hd : d = 'e'
      · subst hd
        rw [hf.apply_eq (d := 'e') (by decide)]
        cases before with
        | nil => rfl
        | cons e before =>
          simp only [List.map_cons, isExponentSign, hf.isDigit_apply, hf.apply_beq (d := '+') (by decide),
            hf.apply_beq (d := '-') (by decide)]
      · rw [isExponentSign_of_ne hd, isExponentSign_of_ne (mt (hf.eq_iff (.inl (by decide)) d).mp hd)]
    rw [List.map_cons, isBinaryAfter, isBinaryAfter, hoperator, hsign]

theorem splitFrom_map (t : Tier) (k : Int) (right before : List Char) :
    splitFrom t k (right.map f) (before.map f) = (splitFrom t k right before).map (Split.mapTexts f) := by
  induction before generalizing k right with
  | nil => rfl
  | cons c before ih =>
    have hop : t.opOf? (f c) = t.opOf? c := by rw [Tier.opOf?, Tier.opOf?, hf.ofSymbol?_apply]
    rw [List.map_cons, splitFrom, splitFrom, hf.isBinaryAfter_map, hop, hf.bracket_apply, ← List.map_cons, ih]
    split
    next op => simp [Split.mapTexts]
    next => rfl

theorem split?_map (t : Tier) (s : List Char) : split? t (s.map f) = (split? t s).map (Split.mapTexts f) := by
  rw [split?, split?, ← List.map_reverse, ← hf.splitFrom_map]
  rfl

theorem splitArgumentsFrom_map (k : Int) (s : List Char) :
    splitArgumentsFrom k (s.map f) = (splitArgumentsFrom k s).map (List.map f) := by
  induction s generalizing k with
  | nil => rfl
  | cons c s ih =>
    have hfirst (ps : List (List Char)) :
        consFirst (f c) (ps.map (List.map f)) = (consFirst c ps).map (List.map f) := by
      cases ps <;> rfl
    simp only [List.map_cons, splitArgumentsFrom, hf.eq_iff (d := ',') (.inl (by decide)), hf.bracket_apply, ih, hfirst]
    split <;> rfl

theorem argumentTexts_map (s : List Char) : argumentTexts (s.map f) = (argumentTexts s).map (List.map f) := by
  simp only [argumentTexts, List.map_eq_nil_iff, splitArguments, hf.splitArgumentsFrom_map]
  split <;> rfl

theorem slotOfText?_map (s : List Char) : Form.slotOfText? vars (s.map f) = Form.slotOfText? vars s := by
  match s with
  | [] => rfl
  | [c] => exact hf.idxOf?_apply c
  | _ :: _ :: _ => rfl

/-- A literal is in ASCII, so a text is one with its characters replaced exactly if it was one before. -/
theorem numberOfText?_map {s : List Char} (hs : split? .additive s = none) :
    Form.numberOfText? (s.map f) = Form.numberOfText? s := by
  have hmap : split? .additive (s.map f) = none := by
    rw [hf.split?_map, hs]
    rfl
  have hiff (x : Float) : Form.numberOfText? (s.map f) = some x ↔ Form.numberOfText? s = some x := by
    rw [numberOfText?_eq_some_iff (split?_eq_none_iff.mp hmap), numberOfText?_eq_some_iff (split?_eq_none_iff.mp hs)]
    constructor
    · intro h
      rwa [hf.map_eq_self fun c hc => .inr (h.ascii (f c) (List.mem_map_of_mem hc))] at h
    · intro h
      rwa [hf.map_eq_self fun c hc => .inl (h.ascii c hc)]
  exact Option.ext hiff

theorem ofCall_map (g : Func) (s : List Char) : Form.ofCall g (s.map f) = (Form.ofCall g s).mapTexts f := by
  cases s with
  | nil => rfl
  | cons c s =>
    by_cases hc : c = '('
    · subst hc
      have hlast : (s.map f).getLast? = some ')' ↔ s.getLast? = some ')' := by
        rw [List.getLast?_map, hf.map_eq_some_iff (by decide)]
      rw [List.map_cons, hf.apply_eq (d := '(') (by decide), Form.ofCall, Form.ofCall, ← List.map_dropLast,
        hf.argumentTexts_map]
      simp only [hlast]
      split <;> rfl
    · have hmap : f c ≠ '(' := mt (hf.eq_iff (.inl (by decide)) c).mp hc
      rw [List.map_cons, Form.ofCall_of_ne g hc, Form.ofCall_of_ne g hmap]
      rfl

theorem ofOperand_map {s : List Char} (hs : split? .additive s = none) :
    Form.ofOperand vars (s.map f) = (Form.ofOperand vars s).mapTexts f := by
  unfold Form.ofOperand
  dsimp only
  rw [hf.firstWord_map, hf.slotOfText?_map, hf.numberOfText?_map hs, ← List.map_drop]
  split
  next g _ => exact hf.ofCall_map g _
  next =>
    split
    next => rfl
    next => split <;> rfl

theorem ofTerm_map {s : List Char} (hs : split? .additive s = none) :
    Form.ofTerm vars (s.map f) = (Form.ofTerm vars s).mapTexts f := by
  by_cases hhead : s.head? = some '-'
  · obtain ⟨s, rfl⟩ := List.head?_eq_some_iff.mp hhead
    rw [List.map_cons, hf.apply_eq (d := '-') (by decide), Form.ofTerm, Form.ofTerm]
    rfl
  · have hmap : (s.map f).head? ≠ some '-' := by
      rwa [ne_eq, List.head?_map, hf.map_eq_some_iff (by decide)]
    rw [Form.ofTerm_of_head?_ne hhead, Form.ofTerm_of_head?_ne hmap, hf.split?_map, hf.split?_map,
      hf.ofOperand_map hs]
    cases split? .multiplicative s with
    | some r => rfl
    | none => cases split? .power s <;> rfl

theorem ofText_map (s : List Char) : Form.ofText vars (s.map f) = (Form.ofText vars s).mapTexts f := by
  simp only [Form.ofText, List.map_eq_nil_iff, hf.split?_map]
  split
  · rfl
  · cases hs : split? .additive s with
    | some r => rfl
    | none => exact hf.ofTerm_map hs

end ReplacesForeign

theorem parseParts_mapTexts {args : List (List Char)}
    (h : ∀ p ∈ args, parsePart vars (p.map f) = (parsePart vars p).mapTexts f) :
    parseParts vars (args.map (List.map f)) = (parseParts vars args).mapTexts f := by
  induction args with
  | nil => rw [List.map_nil, parseParts, Attempt.mapTexts_pure]
  | cons p args ih =>
    obtain ⟨hp, hargs⟩ := List.forall_mem_cons.mp h
    rw [List.map_cons, parseParts, parseParts, hp, ih hargs]
    simp only [Attempt.mapTexts_bind, Attempt.mapTexts_pure]

/-- A part is read in the same steps. The induction is on the parts, which are those of the text with its
characters replaced. -/
theorem ReplacesForeign.parsePart_map (hf : ReplacesForeign vars f) (s : List Char) :
    parsePart vars (s.map f) = (parsePart vars s).mapTexts f := by
  induction s using induction_parts vars with
  | step s ih =>
    rw [parsePart_eq, parsePart_eq vars s, hf.normal_map, hf.ofText_map, Attempt.mapTexts_bind]
    refine bind_congr fun _ => ?_
    generalize normal vars s = text at ih
    generalize Form.ofText vars text = form at ih
    cases form with
    | negation t =>
      have ht := Form.forall_parts_negation.mp ih
      simp only [Form.mapTexts, ht, Attempt.mapTexts_bind, Attempt.mapTexts_pure]
    | operation r =>
      obtain ⟨hleft, hright⟩ := Form.forall_parts_operation.mp ih
      simp only [Form.mapTexts, Split.position_mapTexts, Attempt.mapTexts_bind, Attempt.mapTexts_pure]
      rw [← hleft, ← hright]
      rfl
    | call g args =>
      have hargs : parseParts vars (args.map (List.map f)) = (parseParts vars args).mapTexts f := parseParts_mapTexts ih
      simp only [Form.mapTexts, hargs, Attempt.mapTexts_bind, Attempt.mapTexts_call?]
    | slot i => rfl
    | number x => rfl
    | blank => rfl
    | brokenCall => rfl
    | unknown => rfl

end Grammar
end PlotFormula
