import Mathlib.Data.List.Forall2
import PlotFormula.Proofs.Grammar.Phrases

/-! # The form of a phrase

The form of a normal text names the texts of its parts, and the tree of a text is put together from the
trees of the parts. A normal text is a formula of the grammar exactly if its form puts its tree together
from formulas.
-/
namespace PlotFormula.Grammar
namespace Form

def parts : Form → List (List Char)
  | negation s => [s]
  | operation r => [r.left, r.right]
  | call _ args => args
  | _ => []

@[simp] theorem forall_parts_negation {P : List Char → Prop} {s : List Char} :
    (∀ p ∈ (negation s).parts, P p) ↔ P s := List.forall_mem_singleton

@[simp] theorem forall_parts_operation {P : List Char → Prop} {r : Split} :
    (∀ p ∈ (operation r).parts, P p) ↔ P r.left ∧ P r.right := by
  simp [parts]

/-- A tree of the form, when `R` says which trees are those of the parts. -/
def Means (R : List Char → Expr Float → Prop) : Form → Expr Float → Prop
  | negation s, a => ∃ x, R s x ∧ a = .neg x
  | operation r, a => ∃ x y, R r.left x ∧ R r.right y ∧ a = .binary r.op x y
  | call f args, a => ∃ as, List.Forall₂ R args as ∧ f.arity.accepts as.length = true ∧ a = .call f as
  | slot i, a => a = .var i
  | number x, a => a = .const x
  | blank, _ | brokenCall, _ | unknown, _ => False

theorem forall₂_congr {R R' : List Char → Expr Float → Prop} {args : List (List Char)}
    {as : List (Expr Float)} (h : ∀ s ∈ args, ∀ a, R s a ↔ R' s a) :
    List.Forall₂ R args as ↔ List.Forall₂ R' args as := by
  induction args generalizing as with
  | nil => simp
  | cons s args ih =>
    obtain ⟨hs, hargs⟩ := List.forall_mem_cons.mp h
    cases as with
    | nil => simp
    | cons a as => rw [List.forall₂_cons, List.forall₂_cons, hs, ih hargs]

theorem means_congr {R R' : List Char → Expr Float → Prop} {form : Form}
    (h : ∀ s ∈ form.parts, ∀ a, R s a ↔ R' s a) (a : Expr Float) : form.Means R a ↔ form.Means R' a := by
  cases form with
  | negation s => simp [Means, forall_parts_negation.mp h]
  | operation r =>
    obtain ⟨hleft, hright⟩ := forall_parts_operation.mp h
    simp [Means, hleft, hright]
  | call f args =>
    have hargs (as : List (Expr Float)) : List.Forall₂ R args as ↔ List.Forall₂ R' args as := forall₂_congr h
    simp only [Means, hargs]
  | _ => exact Iff.rfl

theorem weight_lt_of_mem_parts {form : Form} {s : List Char} (h : s ∈ form.parts) :
    Grammar.weight s < form.weight := by
  cases form with
  | negation t =>
    obtain rfl := List.mem_singleton.mp h
    exact Nat.lt_succ_self _
  | operation r =>
    simp only [parts, List.mem_cons, List.not_mem_nil, or_false] at h
    rcases h with rfl | rfl <;> simp only [weight] <;> omega
  | call f args =>
    have : Grammar.weight s < weights args := by
      induction args with
      | nil => simp [parts] at h
      | cons t args ih =>
        rw [weights_cons]
        rcases List.mem_cons.mp h with rfl | h
        · omega
        · have := ih h
          omega
    exact Nat.lt_succ_of_lt this
  | _ => simp [parts] at h

end Form

theorem level_reverse (s : List Char) : level s.reverse = level s := by
  induction s with
  | nil => rfl
  | cons c s ih => rw [List.reverse_cons, level_append, ih, level_cons, level_cons, level_nil]; omega

theorem level_lt_of_staysOpen {k : Int} (hk : 0 < k) {s : List Char} (h : staysOpen k s = true) :
    ∀ l r, s = l ++ r → level l < k := by
  induction s generalizing k with
  | nil =>
    intro l r hs
    obtain ⟨rfl, rfl⟩ := List.append_eq_nil_iff.mp hs.symm
    exact hk
  | cons c s ih =>
    rw [staysOpen, Bool.and_eq_true, decide_eq_true_iff] at h
    have hbracket : bracket c ≤ 1 := by
      unfold bracket
      split
      · exact Int.le_refl 1
      · split <;> decide
    intro l r hs
    cases l with
    | nil => exact hk
    | cons d l =>
      obtain ⟨rfl, ht⟩ := List.cons.inj hs
      have := ih (by omega) h.2 l r ht
      rw [level_cons]
      omega

theorem suffix_nonpos_of_unwrap? {s inner : List Char} (h : unwrap? s = some inner) :
    ∀ l r, inner = l ++ r → level r ≤ 0 := by
  have hs := eq_of_unwrap? h
  rw [hs, show '(' :: (inner ++ [')']) = '(' :: inner ++ [')'] from rfl, unwrap?_parens] at h
  split at h
  next hopen =>
    intro l r hlr
    have := level_lt_of_staysOpen (by decide) hopen r.reverse l.reverse (by simp [hlr])
    rw [level_reverse] at this
    omega
  next => simp at h

/-- A nested text in parentheses is inside an enclosing pair. -/
theorem unwrap?_nested {s : List Char} (hs : Nested s) : unwrap? ('(' :: s ++ [')']) = some s := by
  rw [unwrap?_parens, if_pos]
  have hopen {k : Int} {t : List Char} (hk : 0 < k) (h : ∀ l r, t = l ++ r → level l < k) :
      staysOpen k t = true := by
    induction t generalizing k with
    | nil => rfl
    | cons c t ih =>
      have hc := h [c] t rfl
      simp only [level_cons, level_nil, Int.add_zero] at hc
      rw [staysOpen, Bool.and_eq_true, decide_eq_true_iff]
      refine ⟨by omega, ih (by omega) ?_⟩
      intro l r ht
      have := h (c :: l) r (by rw [ht]; rfl)
      rw [level_cons] at this
      omega
  refine hopen (by decide) ?_
  intro l r hlr
  have := hs.suffix_nonpos (l := r.reverse) (r := l.reverse) (by
    rw [← List.reverse_append, ← hlr, List.reverse_reverse])
  rw [level_reverse] at this
  omega

namespace Derives
variable {vars s : List Char} {a : Expr Float}

theorem isNameStart_head {f : Func} {t : List Char} {c : Char} (h : c ∈ (f.name ++ t).head?) :
    isNameStart c = true := by
  rw [List.head?_append_of_ne_nil _ (name_ne_nil f)] at h
  exact isNameStart_of_mem_name f c (List.mem_of_mem_head? h)

theorem unwrap_iff (hvars : IsPlain vars) {inner : List Char} (h : unwrap? s = some inner) :
    Derives vars (.chain .additive) s a ↔ Derives vars (.chain .additive) inner a := by
  have hs : s = '(' :: inner ++ [')'] := eq_of_unwrap? h
  constructor
  · intro hd
    have hatom : Derives vars .atom s a := by
      refine hd.toAtom hvars ?_ (by simp [hs])
      intro t
      rw [hs]
      exact uncut_parens (suffix_nonpos_of_unwrap? h)
    have hhead : '(' ∈ s.head? := by simp [hs]
    cases hatom with
    | base hp => exact absurd rfl hp
    | @group t _ ht =>
      obtain rfl : t = inner := List.append_cancel_right (List.cons.inj hs).2
      exact ht
    | @name f =>
      rw [← List.append_nil f.name] at hhead
      exact absurd (isNameStart_head hhead) (by decide)
    | call => exact absurd (isNameStart_head hhead) (by decide)
    | slot => simp at hs
    | literal h =>
      obtain ⟨c, hc, hd⟩ := h.head
      obtain rfl := Option.mem_unique hc hhead
      exact absurd hd (by decide)
  · intro hd
    rw [hs]
    exact toSum (.group hd)

theorem strip_iff (hvars : IsPlain vars) (s : List Char) :
    Derives vars (.chain .additive) (strip s) a ↔ Derives vars (.chain .additive) s a := by
  fun_induction strip s with
  | case1 s inner h ih => rw [ih, unwrap_iff hvars h]
  | case2 => exact Iff.rfl

theorem blank_iff (hvars : IsPlain vars) :
    Derives vars (.chain .additive) [] a ↔ Form.blank.Means (Derives vars (.chain .additive)) a :=
  ⟨fun h => h.ne_nil hvars rfl, False.elim⟩

theorem negation_iff (hvars : IsPlain vars) (hs : Uncut .additive [] 0 ('-' :: s)) :
    Derives vars (.chain .additive) ('-' :: s) a ↔
      (Form.negation s).Means (Derives vars (.chain .additive)) a := by
  constructor
  · intro h
    have hoperand : Derives vars (.operand .additive) ('-' :: s) a := h.base_of_uncut hvars hs
    cases hoperand with
    | negation hx => exact ⟨_, hx.toSum, rfl⟩
    | base _ hbase => exact absurd rfl (hbase.head_ne_minus hvars (by simp [Phrase.base, Phrase.Signed]))
  · rintro ⟨x, hx, rfl⟩
    have hinner := (uncut_cons.mp hs).2.alone (operandPosition_symbol .subtract [])
    exact .base (by decide) (.negation (hx.base_of_uncut hvars hinner))

/-- An operation of a tier, in a text without looser operators. -/
theorem operation_iff (hvars : IsPlain vars) {t : Tier} {r : Split} (hsplit : split? t s = some r)
    (hs : ∀ u : Tier, u.rank < t.rank → Uncut u [] 0 s) (hhead : t ≠ .additive → s.head? ≠ some '-') :
    Derives vars (.chain .additive) s a ↔ (Form.operation r).Means (Derives vars (.chain .additive)) a := by
  constructor
  · intro h
    rcases (h.toChain hvars hs hhead).chain_cases hvars with ⟨op, l, r', x, y, hsplit', rfl, hl, hr⟩ | ⟨hnone, -⟩
    · obtain rfl := Option.some.inj (hsplit.symm.trans hsplit')
      exact ⟨x, y, hl.toSum, hr.toSum, rfl⟩
    · rw [split?_eq_none_iff.mpr hnone] at hsplit
      simp at hsplit
  · rintro ⟨x, y, hx, hy, rfl⟩
    obtain ⟨rfl, hcut, hright⟩ := split?_eq_some_iff.mp hsplit
    have hlevel : (0 : Int) - level (r.op.symbol :: r.right) = 0 := by simp [hcut.level_right]
    have hne : r.left ≠ [] := by
      intro hnil
      have := hcut.binary
      simp [hnil, isBinaryAfter] at this
    have hl : Derives vars (.chain t) r.left x := by
      refine hx.toChain hvars ?_ ?_
      · intro u hu
        have := (uncut_append.mp (hs u hu)).1
        rwa [hlevel] at this
      · intro ht
        have := hhead ht
        rwa [Split.whole, List.head?_append_of_ne_nil _ hne] at this
    have hr : Derives vars (.operand t) r.right y := by
      apply hy.toOperandOf hvars
      intro u hu
      have hposition := operandPosition_symbol r.op (r.left.reverse ++ [])
      rcases Nat.lt_or_eq_of_le hu with hu | hu
      · exact (uncut_cons.mp (uncut_append.mp (hs u hu)).2).2.alone hposition
      · obtain rfl : u = t := by cases u <;> cases t <;> simp_all [Tier.rank]
        rw [List.append_nil] at hposition
        exact hright.alone hposition
    exact toSum (.operation hcut.tier_eq hl hr)

end Derives

def IsSmall (s : List Char) : Prop := ∀ c ∈ s, c.toLower = c

theorem lookup?_eq_some_iff {word : List Char} (h : IsSmall word) {f : Func} :
    Func.lookup? word = some f ↔ word = f.name := by
  constructor
  · intro hf
    rw [Func.name_of_lookup? hf, List.map_congr_left h, List.map_id']
  · rintro rfl
    exact Func.lookup?_name f

theorem firstWord_append_drop (s : List Char) : firstWord s ++ s.drop (firstWord s).length = s := by
  conv => lhs; lhs; rw [← firstWord_prefix s]
  exact List.take_append_drop _ s

theorem firstWord_name (f : Func) {t : List Char} (ht : ∀ c ∈ t.head?, EndsWords c) :
    firstWord (f.name ++ t) = f.name := by
  have hpart : ∀ c ∈ f.name, isNamePart c = true := fun c hc =>
    isNamePart_of_isNameStart (isNameStart_of_mem_name f c hc)
  have htake : t.takeWhile isNamePart = [] := by
    cases t with
    | nil => rfl
    | cons d t => exact List.takeWhile_cons_of_neg (Bool.eq_false_iff.mp (ht d rfl))
  obtain ⟨c, n, hn⟩ := List.exists_cons_of_ne_nil (name_ne_nil f)
  have hc := isNameStart_of_mem_name f c (by simp [hn])
  rw [hn] at hpart ⊢
  rw [List.cons_append, firstWord, if_pos hc,
    List.takeWhile_append_of_pos fun d hd => hpart d (List.mem_cons_of_mem _ hd), htake, List.append_nil]

theorem firstWord_eq_nil {s : List Char} (h : ∀ c ∈ s.head?, isNameStart c = false) : firstWord s = [] := by
  cases s with
  | nil => rfl
  | cons c s => rw [firstWord, if_neg (Bool.eq_false_iff.mp (h c rfl))]

theorem lookup?_nil : Func.lookup? [] = none := by decide

namespace Form
variable {vars s : List Char}

theorem ofTerm_of_head?_ne (h : s.head? ≠ some '-') :
    ofTerm vars s =
      match split? .multiplicative s with
      | some parts => operation parts
      | none =>
        match split? .power s with
        | some parts => operation parts
        | none => ofOperand vars s := by
  unfold ofTerm
  split
  next => simp at h
  next => rfl

theorem ofOperand_of_name (vars : List Char) {f : Func} {t : List Char} (ht : ∀ c ∈ t.head?, EndsWords c) :
    ofOperand vars (f.name ++ t) = ofCall f t := by
  rw [ofOperand, firstWord_name f ht, Func.lookup?_name, List.drop_left]

theorem ofOperand_of_none (h : Func.lookup? (firstWord s) = none) :
    ofOperand vars s =
      match slotOfText? vars s with
      | some i => slot i
      | none =>
        match numberOfText? s with
        | some x => number x
        | none => unknown := by
  unfold ofOperand
  dsimp only
  generalize Func.lookup? (firstWord s) = f at h ⊢
  subst h
  rfl

theorem ofCall_parens (f : Func) (s : List Char) :
    ofCall f ('(' :: s ++ [')']) = call f (argumentTexts s) := by
  simp [ofCall]

theorem ofCall_of_ne (f : Func) {c : Char} (hc : c ≠ '(') (s : List Char) : ofCall f (c :: s) = brokenCall := by
  unfold ofCall
  split
  next h => simp at h
  next h => exact absurd (List.cons.inj h).1 hc
  next => rfl

theorem join_argumentTexts (s : List Char) : joinArguments (argumentTexts s) = s := by
  rw [argumentTexts]
  split
  next h => rw [h]; rfl
  next => exact join_splitArgumentsFrom 0 s

/-- What begins with a name is a call if the name stands alone or before a list in parentheses. -/
@[elab_as_elim]
theorem ofCall_cases {motive : Form → Prop} (f : Func) (t : List Char)
    (call : ∀ args, t = [] ∧ args = [] ∨ t = '(' :: joinArguments args ++ [')'] → motive (call f args))
    (brokenCall : motive brokenCall) : motive (ofCall f t) := by
  unfold ofCall
  split
  next => exact call [] (.inl ⟨rfl, rfl⟩)
  next u =>
    split
    next hlast =>
      obtain ⟨u, rfl⟩ := List.getLast?_eq_some_iff.mp hlast
      refine call _ (.inr ?_)
      rw [List.dropLast_concat, join_argumentTexts]
      rfl
    next => exact brokenCall
  next => exact brokenCall

theorem slotOfText?_eq_some_iff {i : Nat} :
    slotOfText? vars s = some i ↔ ∃ c, s = [c] ∧ vars.idxOf? c = some i := by
  unfold slotOfText?
  split
  next c => simp
  next h => simpa using fun c hc => absurd hc (h c)

/-- What a text is, with what the search has found that says so. A word that is a name of the catalog is never
a slot. -/
@[elab_as_elim]
theorem ofText_cases {motive : Form → Prop} (vars s : List Char)
    (blank : s = [] → motive blank)
    (operation : ∀ t r, split? t s = some r → motive (operation r))
    (negation : ∀ t, s = '-' :: t → motive (negation t))
    (call : ∀ f args, Func.lookup? (firstWord s) = some f →
      args = [] ∨ s = firstWord s ++ ('(' :: joinArguments args ++ [')']) → motive (call f args))
    (brokenCall : motive brokenCall)
    (slot : ∀ i, Func.lookup? (firstWord s) = none → slotOfText? vars s = some i → motive (slot i))
    (number : ∀ x, numberOfText? s = some x → motive (number x))
    (unknown : motive unknown) : motive (ofText vars s) := by
  unfold ofText
  split
  next h => exact blank h
  split
  next r h => exact operation _ r h
  unfold ofTerm
  split
  next => exact negation _ rfl
  split
  next r h => exact operation _ r h
  split
  next r h => exact operation _ r h
  unfold ofOperand
  dsimp only
  split
  next f hf =>
    refine ofCall_cases f _ (fun args hargs => call f args hf ?_) brokenCall
    rcases hargs with ⟨-, hargs⟩ | ht
    · exact .inl hargs
    · exact .inr (by rw [← ht, firstWord_append_drop])
  next hf =>
    split
    next i hi => exact slot i hf hi
    split
    next x hx => exact number x hx
    next => exact unknown

end Form

namespace Derives
variable {vars s : List Char} {a : Expr Float}

theorem ofAtom_means (hvars : IsPlain vars) (hsmall : IsSmall s) (hs : Uncut .additive [] 0 s)
    (hunwrap : unwrap? s = none) (h : Derives vars .atom s a) :
    (Form.ofOperand vars s).Means (Derives vars (.chain .additive)) a := by
  cases h with
  | base hp => exact absurd rfl hp
  | group h =>
    rw [unwrap?_nested (h.closed hvars).toNested] at hunwrap
    simp at hunwrap
  | @name f hf =>
    have hform : Form.ofOperand vars f.name = .call f [] := by
      have := Form.ofOperand_of_name vars (f := f) (t := []) (by simp)
      rwa [List.append_nil] at this
    rw [hform]
    exact ⟨[], .nil, hf, rfl⟩
  | @call f args hf hargs =>
    have hclosed : ∀ q ∈ args.map Prod.fst, Closed q ∧ q ≠ [] := by
      intro q hq
      obtain ⟨arg, harg, rfl⟩ := List.mem_map.mp hq
      exact ⟨(hargs arg harg).closed hvars, (hargs arg harg).ne_nil hvars⟩
    rw [Form.ofOperand_of_name vars (by simp [endsWords_open]), Form.ofCall_parens,
      argumentTexts_join (fun q hq => (hclosed q hq).1) fun q hq => (hclosed q hq).2]
    refine ⟨args.map Prod.snd, ?_, by rwa [List.length_map], rfl⟩
    rw [List.forall₂_map_left_iff, List.forall₂_map_right_iff, List.forall₂_same]
    exact hargs
  | @slot c i hc hi =>
    -- The only name of one character is `e`, which the grammar keeps out of the slots.
    have hlookup : Func.lookup? (firstWord [c]) = none := by
      rw [firstWord]
      split
      next =>
        cases hf : Func.lookup? [c] with
        | none => exact hf
        | some f =>
          have hname := (lookup?_eq_some_iff hsmall).mp hf
          refine absurd ?_ hc
          cases f <;> simp_all [Func.name]
      next => exact lookup?_nil
    rw [Form.ofOperand_of_none hlookup, Form.slotOfText?_eq_some_iff.mpr ⟨c, rfl, hi⟩]
    rfl
  | @literal _ x h =>
    obtain ⟨c, hc, hd⟩ := h.head
    -- Names and slots are looked for before literals, so neither may be what a literal begins with.
    have hlookup : Func.lookup? (firstWord s) = none := by
      rw [firstWord_eq_nil, lookup?_nil]
      intro d hdc
      obtain rfl := Option.mem_unique hc hdc
      rcases hd with hd | rfl | rfl
      · exact isNameStart_of_isDigit hd
      · decide
      · decide
    have hslot : Form.slotOfText? vars s = none := by
      cases hi : Form.slotOfText? vars s with
      | none => rfl
      | some i =>
        obtain ⟨d, rfl, hidx⟩ := Form.slotOfText?_eq_some_iff.mp hi
        have hmem : d ∈ vars := List.isSome_idxOf?.mp (by rw [hidx]; rfl)
        obtain rfl : d = c := by simpa using hc
        refine absurd hmem (hvars.not_mem ?_)
        rcases hd with hd | rfl | rfl
        · simp [isReserved, hd]
        · decide
        · decide
    rw [Form.ofOperand_of_none hlookup, hslot, (numberOfText?_eq_some_iff hs).mpr h]
    rfl

theorem of_means_ofOperand (hsmall : IsSmall s) (hs : Uncut .additive [] 0 s)
    (h : (Form.ofOperand vars s).Means (Derives vars (.chain .additive)) a) : Derives vars .atom s a := by
  unfold Form.ofOperand at h
  dsimp only at h
  split at h
  next f hf =>
    have hword : IsSmall (firstWord s) := by
      intro c hc
      rw [← firstWord_prefix s] at hc
      exact hsmall c (List.mem_of_mem_take hc)
    have hname := (lookup?_eq_some_iff hword).mp hf
    have hwhole := firstWord_append_drop s
    generalize s.drop (firstWord s).length = t at h hwhole
    rw [hname] at hwhole
    subst hwhole
    revert h
    refine Form.ofCall_cases f t ?call ?brokenCall
    case brokenCall => exact False.elim
    rintro args ht ⟨as, hargs, hf, rfl⟩
    rcases ht with ⟨rfl, rfl⟩ | rfl
    · obtain rfl := List.forall₂_nil_left_iff.mp hargs
      rw [List.append_nil]
      exact .name hf
    · have hlen := hargs.length_eq
      have hfst : (args.zip as).map Prod.fst = args := List.map_fst_zip hlen.le
      have hsnd : (args.zip as).map Prod.snd = as := List.map_snd_zip hlen.ge
      have hcall : Derives vars .atom (f.name ++ ('(' :: joinArguments ((args.zip as).map Prod.fst) ++ [')']))
          (.call f ((args.zip as).map Prod.snd)) :=
        .call (by rwa [List.length_zip, hlen, Nat.min_self]) fun p hp => (List.forall₂_iff_zip.mp hargs).2 hp
      rwa [hfst, hsnd] at hcall
  next hlookup =>
    split at h
    next i hi =>
      obtain ⟨c, rfl, hi⟩ := Form.slotOfText?_eq_some_iff.mp hi
      obtain rfl : a = .var i := h
      refine .slot ?_ hi
      rintro rfl
      exact absurd hlookup (by decide)
    next =>
      split at h
      next x hx =>
        obtain rfl : a = .const x := h
        exact .literal ((numberOfText?_eq_some_iff hs).mp hx)
      next => exact h.elim

/-- A normal text is a formula exactly if its form puts its tree together from formulas. -/
theorem iff_means (hvars : IsPlain vars) (hsmall : IsSmall s) (hunwrap : unwrap? s = none) :
    Derives vars (.chain .additive) s a ↔
      (Form.ofText vars s).Means (Derives vars (.chain .additive)) a := by
  -- Every search that finds nothing leaves one tier less outside parentheses.
  unfold Form.ofText
  split
  next hnil => rw [hnil, blank_iff hvars]
  split
  next r hsplit =>
    exact operation_iff hvars hsplit (fun u hu => absurd hu (Nat.not_lt_zero _)) fun h => absurd rfl h
  next hsum =>
    have hsum := split?_eq_none_iff.mp hsum
    unfold Form.ofTerm
    split
    next => exact negation_iff hvars hsum
    next hminus =>
      have hhead : s.head? ≠ some '-' := by
        intro hhead
        obtain ⟨t, rfl⟩ := List.head?_eq_some_iff.mp hhead
        exact hminus t rfl
      split
      next r hsplit =>
        refine operation_iff hvars hsplit ?_ fun _ => hhead
        intro u hu
        cases u <;> simp_all [Tier.rank]
      next hproduct =>
        have hproduct := split?_eq_none_iff.mp hproduct
        split
        next r hsplit =>
          refine operation_iff hvars hsplit ?_ fun _ => hhead
          intro u hu
          cases u <;> simp_all [Tier.rank]
        next hpower =>
          have hpower := split?_eq_none_iff.mp hpower
          constructor
          · intro h
            refine ofAtom_means hvars hsmall hsum hunwrap (h.toAtom hvars ?_ hhead)
            intro t
            cases t <;> assumption
          · exact fun h => toSum (of_means_ofOperand hsmall hsum h)

end Derives
end PlotFormula.Grammar
