import PlotFormula.Proofs.Grammar.Reading

/-! # Formulas made of formulas

Formulas in parentheses may be put together with operators, with nothing at all, or under a name, and the
tree of the whole is made of the trees of the parts. Nothing that is done to the text of the whole reaches
across the parentheses.
-/
namespace PlotFormula.Grammar

section
variable {α β : Type}

/-- Performs the operations of one tier in a row of operands, from left to right. -/
def contract (combine : Op → α → α → α) (t : Tier) (x : α) : List (Op × α) → α × List (Op × α)
  | [] => (x, [])
  | (op, y) :: rest =>
    if op.tier = t then contract combine t (combine op x y) rest
    else
      let r := contract combine t y rest
      (x, (op, r.1) :: r.2)

/-- Performs the operations in a row of operands by standard precedence: powers, then products and
quotients, then sums and differences. -/
def precedence (combine : Op → α → α → α) (x : α) (rest : List (Op × α)) : α :=
  let powers := contract combine .power x rest
  let products := contract combine .multiplicative powers.1 powers.2
  (contract combine .additive products.1 products.2).1

def mapRow (f : α → β) (rest : List (Op × α)) : List (Op × β) := rest.map fun p => (p.1, f p.2)

@[simp] theorem mapRow_nil (f : α → β) : mapRow f [] = [] := rfl

@[simp] theorem mapRow_cons (f : α → β) (op : Op) (x : α) (rest : List (Op × α)) :
    mapRow f ((op, x) :: rest) = (op, f x) :: mapRow f rest := rfl

theorem contract_of_tier {combine : Op → α → α → α} {t : Tier} {op : Op} (h : op.tier = t) (x y : α)
    (rest : List (Op × α)) :
    contract combine t x ((op, y) :: rest) = contract combine t (combine op x y) rest := by
  rw [contract, if_pos h]

theorem contract_of_ne {combine : Op → α → α → α} {t : Tier} {op : Op} (h : op.tier ≠ t) (x y : α)
    (rest : List (Op × α)) :
    contract combine t x ((op, y) :: rest) =
      (x, (op, (contract combine t y rest).1) :: (contract combine t y rest).2) := by
  rw [contract, if_neg h]

theorem contract_mapRow (f : α → β) {combine : Op → α → α → α} {combine' : Op → β → β → β}
    (h : ∀ op x y, f (combine op x y) = combine' op (f x) (f y)) (t : Tier) (x : α)
    (rest : List (Op × α)) :
    contract combine' t (f x) (mapRow f rest) =
      (f (contract combine t x rest).1, mapRow f (contract combine t x rest).2) := by
  induction rest generalizing x with
  | nil => rfl
  | cons p rest ih =>
    obtain ⟨op, y⟩ := p
    by_cases hop : op.tier = t
    · rw [mapRow_cons, contract_of_tier hop, contract_of_tier hop, ← h]
      exact ih _
    · rw [mapRow_cons, contract_of_ne hop, contract_of_ne hop, ih]
      rfl

theorem precedence_mapRow (f : α → β) {combine : Op → α → α → α} {combine' : Op → β → β → β}
    (h : ∀ op x y, f (combine op x y) = combine' op (f x) (f y)) (x : α) (rest : List (Op × α)) :
    precedence combine' (f x) (mapRow f rest) = f (precedence combine x rest) := by
  simp only [precedence, contract_mapRow f h]

theorem contract_induction {combine : Op → α → α → α} {t : Tier} {P Q : α → Prop} (hPQ : ∀ x, P x → Q x)
    (hcombine : ∀ op x y, op.tier = t → Q x → P y → Q (combine op x y)) {x : α} {rest : List (Op × α)}
    (hx : Q x) (hrest : ∀ p ∈ rest, P p.2) :
    Q (contract combine t x rest).1 ∧ ∀ p ∈ (contract combine t x rest).2, Q p.2 := by
  induction rest generalizing x with
  | nil => exact ⟨hx, by simp [contract]⟩
  | cons p rest ih =>
    obtain ⟨op, y⟩ := p
    obtain ⟨hy, hrest⟩ := List.forall_mem_cons.mp hrest
    by_cases hop : op.tier = t
    · rw [contract_of_tier hop]
      exact ih (hcombine op x y hop hx hy) hrest
    · rw [contract_of_ne hop]
      have := ih (hPQ y hy) hrest
      exact ⟨hx, List.forall_mem_cons.mpr this⟩

theorem contract_tier {combine : Op → α → α → α} {t : Tier} {P : Tier → Prop} {x : α}
    {rest : List (Op × α)} (h : ∀ p ∈ rest, P p.1.tier) :
    ∀ p ∈ (contract combine t x rest).2, p.1.tier ≠ t ∧ P p.1.tier := by
  induction rest generalizing x with
  | nil => simp [contract]
  | cons q rest ih =>
    obtain ⟨op, y⟩ := q
    obtain ⟨hq, hrest⟩ := List.forall_mem_cons.mp h
    by_cases hop : op.tier = t
    · rw [contract_of_tier hop]
      exact ih hrest
    · rw [contract_of_ne hop]
      exact List.forall_mem_cons.mpr ⟨⟨hop, hq⟩, ih hrest⟩

theorem contract_eq_nil (combine : Op → α → α → α) (x : α) (rest : List (Op × α)) :
    let powers := contract combine .power x rest
    let products := contract combine .multiplicative powers.1 powers.2
    (contract combine .additive products.1 products.2).2 = [] := by
  intro powers products
  have hpowers : ∀ p ∈ powers.2, p.1.tier ≠ .power ∧ True :=
    contract_tier (P := fun _ => True) fun _ _ => trivial
  have hproducts : ∀ p ∈ products.2, p.1.tier ≠ .multiplicative ∧ p.1.tier ≠ .power ∧ True :=
    contract_tier (P := fun t => t ≠ .power ∧ True) hpowers
  have hsums : ∀ p ∈ (contract combine .additive products.1 products.2).2,
      p.1.tier ≠ .additive ∧ p.1.tier ≠ .multiplicative ∧ p.1.tier ≠ .power ∧ True :=
    contract_tier (P := fun t => t ≠ .multiplicative ∧ t ≠ .power ∧ True) hproducts
  apply List.eq_nil_iff_forall_not_mem.mpr
  intro p hp
  obtain ⟨hadditive, hmultiplicative, hpower, -⟩ := hsums p hp
  cases ht : p.1.tier <;> simp_all

end

def combine (op : Op) (p q : List Char × Expr Float) : List Char × Expr Float :=
  (p.1 ++ op.symbol :: q.1, .binary op p.2 q.2)

/-- Operands with operators between them. -/
def row (s : List Char) : List (Op × List Char) → List Char
  | [] => s
  | (op, t) :: rest => s ++ op.symbol :: row t rest

theorem row_append (s t : List Char) (rest : List (Op × List Char)) :
    row (s ++ t) rest = s ++ row t rest := by
  cases rest with
  | nil => rfl
  | cons p rest => rw [row, row, List.append_assoc]

theorem row_contract (t : Tier) (p : List Char × Expr Float) (rest : List (Op × List Char × Expr Float)) :
    row (contract combine t p rest).1.1 (mapRow Prod.fst (contract combine t p rest).2) =
      row p.1 (mapRow Prod.fst rest) := by
  induction rest generalizing p with
  | nil => rfl
  | cons q rest ih =>
    obtain ⟨op, q⟩ := q
    by_cases hop : op.tier = t
    · have hcombine : (combine op p q).1 = p.1 ++ [op.symbol] ++ q.1 := by simp [combine]
      rw [contract_of_tier hop, ih, hcombine, row_append, mapRow_cons, row, List.append_assoc]
      rfl
    · rw [contract_of_ne hop, mapRow_cons, mapRow_cons, row, ih, row]

namespace Derives
variable {vars : List Char} {p : List Char × Expr Float} {rest : List (Op × List Char × Expr Float)}

/-- The operations of a tier make chains of what stands on the right of its operators. -/
theorem ofContract {t : Tier} {k : Phrase}
    (hk : ∀ s a, Derives vars k s a → Derives vars (.operand t) s a ∧ Derives vars (.chain t) s a)
    (hp : Derives vars k p.1 p.2) (hrest : ∀ q ∈ rest, Derives vars k q.2.1 q.2.2) :
    Derives vars (.chain t) (contract combine t p rest).1.1 (contract combine t p rest).1.2 ∧
      ∀ q ∈ (contract combine t p rest).2, Derives vars (.chain t) q.2.1 q.2.2 := by
  let P (k : Phrase) (q : List Char × Expr Float) : Prop := Derives vars k q.1 q.2
  have hchain : ∀ q, P k q → P (.chain t) q := fun q hq => (hk q.1 q.2 hq).2
  have hcombine : ∀ op x y, op.tier = t → P (.chain t) x → P k y → P (.chain t) (combine op x y) :=
    fun op x y hop hx hy => .operation hop hx (hk y.1 y.2 hy).1
  exact contract_induction hchain hcombine (hchain p hp) hrest

/-- A row of atoms is a formula with the tree of standard precedence. -/
theorem ofRow (hp : Derives vars .atom p.1 p.2) (hrest : ∀ q ∈ rest, Derives vars .atom q.2.1 q.2.2) :
    Derives vars (.chain .additive) (row p.1 (mapRow Prod.fst rest))
      (precedence .binary p.2 (mapRow Prod.snd rest)) := by
  have hpowers := ofContract (t := .power)
    (fun s a h => ⟨.base (by decide) h, .base (by decide) h⟩) hp hrest
  have hproducts := ofContract (t := .multiplicative)
    (fun s a h => ⟨.base (by decide) h, .base (by decide) h⟩) hpowers.1 hpowers.2
  have hsums := ofContract (t := .additive)
    (fun s a h => ⟨.base (by decide) h, .base (by decide) (.base (by decide) h)⟩) hproducts.1 hproducts.2
  have htree : ∀ op x y, (combine op x y).2 = .binary op x.2 y.2 := fun _ _ _ => rfl
  have hnil := contract_eq_nil combine p rest
  dsimp only at hnil
  rw [← row_contract .power, ← row_contract .multiplicative, ← row_contract .additive, hnil, mapRow_nil, row,
    precedence_mapRow Prod.snd htree]
  exact hsums.1

end Derives

def parens (s : List Char) : List Char := '(' :: s ++ [')']

/-- Texts in parentheses with an operator or nothing at all between them. -/
def joinParens (s : List Char) : List (Option Op × List Char) → List Char
  | [] => parens s
  | (op, t) :: rest => parens s ++ (op.map Op.symbol).toList ++ joinParens t rest

theorem joinParens_cons (s : List Char) (rest : List (Option Op × List Char)) :
    ∃ t, joinParens s rest = '(' :: t := by
  cases rest with
  | nil => exact ⟨_, rfl⟩
  | cons p rest => exact ⟨_, rfl⟩

theorem compact_symbol (op : Op) : compact [op.symbol] = [op.symbol] := by
  refine compact_of_isLower fun c hc => ?_
  obtain rfl := List.mem_singleton.mp hc
  exact lower_symbol op

theorem compact_parens_append (s t : List Char) : compact (parens s ++ t) = parens (compact s) ++ compact t := by
  have hopen := compact_append Text.isBoundary_open (by decide) [] (s ++ ')' :: t)
  rw [compact_append Text.isBoundary_close (by decide)] at hopen
  simp only [parens, List.append_assoc, List.cons_append, List.nil_append] at hopen ⊢
  exact hopen

theorem compact_parens (s : List Char) : compact (parens s) = parens (compact s) := by
  have := compact_parens_append s []
  rw [List.append_nil] at this
  exact this.trans (List.append_nil _)

theorem compact_append_open (s t : List Char) : compact (s ++ '(' :: t) = compact s ++ compact ('(' :: t) := by
  have h := compact_append Text.isBoundary_open (by decide) [] t
  rw [compact_append Text.isBoundary_open (by decide) s t, ← List.nil_append ('(' :: t), h]
  rfl

theorem compact_joinParens (s : List Char) (rest : List (Option Op × List Char)) :
    compact (joinParens s rest) = joinParens (compact s) (rest.map fun p => (p.1, compact p.2)) := by
  induction rest generalizing s with
  | nil => exact compact_parens s
  | cons p rest ih =>
    obtain ⟨op, t⟩ := p
    obtain ⟨u, hu⟩ := joinParens_cons t rest
    have hsymbol : compact (op.map Op.symbol).toList = (op.map Op.symbol).toList := by
      cases op with
      | none => rfl
      | some op => exact compact_symbol op
    rw [joinParens, List.append_assoc, compact_parens_append, hu, compact_append_open, hsymbol, ← hu, ih,
      ← List.append_assoc]
    rfl

section
variable {vars : List Char} (hvars : IsPlain vars)
include hvars

theorem writeProducts_parens_append (s t : List Char) :
    writeProducts vars (parens s ++ t) = '(' :: writeProducts vars s ++ writeProducts vars (')' :: t) := by
  have hcut : parens s ++ t = '(' :: (s ++ ')' :: t) := by simp [parens]
  rw [hcut, writeProducts_cons endsWords_open hvars.shielded.open_left,
    writeProducts_append_cons endsWords_close hvars.shielded.close_right]
  rfl

/-- Between two texts in parentheses a product is written unless there is an operator. -/
theorem writeProducts_joinParens (s : List Char) (rest : List (Option Op × List Char)) :
    writeProducts vars (joinParens s rest) = row (parens (writeProducts vars s))
      (rest.map fun p => (p.1.getD .multiply, parens (writeProducts vars p.2))) := by
  induction rest generalizing s with
  | nil => exact hvars.shielded.writeProducts_parens s
  | cons p rest ih =>
    obtain ⟨op, t⟩ := p
    obtain ⟨u, hu⟩ := joinParens_cons t rest
    have hclose : writeProducts vars (')' :: ((op.map Op.symbol).toList ++ joinParens t rest)) =
        ')' :: (op.getD .multiply).symbol :: writeProducts vars (joinParens t rest) := by
      cases op with
      | none =>
        have hmask := endsWords_open.maskNames_append [')'] u
        rw [← hu] at hmask
        have hseam : seam vars (maskNames [')']).getLast? (maskNames (joinParens t rest)).head? = ['*'] := by
          rw [hu, endsWords_open.maskNames_cons, endsWords_close.maskNames_cons]
          simp [seam, impliesProduct]
        rw [← List.singleton_append, Option.map_none, Option.toList_none, List.nil_append,
          writeProducts_append hmask, hseam, writeProducts_singleton]
        rfl
      | some op =>
        have := (hvars.separates_symbol op).writeProducts_append [')'] (joinParens t rest)
        rwa [writeProducts_singleton] at this
    rw [joinParens, List.append_assoc, writeProducts_parens_append hvars, hclose, ih, List.map_cons, row]
    simp only [parens, List.append_assoc, List.cons_append, List.nil_append]

theorem writeProducts_joinArguments (ps : List (List Char)) :
    writeProducts vars (joinArguments ps) = joinArguments (ps.map (writeProducts vars)) := by
  match ps with
  | [] => rfl
  | [p] => rfl
  | p :: q :: ps =>
    have ih := writeProducts_joinArguments (q :: ps)
    rw [joinArguments, hvars.separates_comma.writeProducts_append, ih]
    rfl

theorem writeProducts_call (f : Func) (ps : List (List Char)) :
    writeProducts vars (f.name ++ parens (joinArguments ps)) =
      f.name ++ parens (joinArguments (ps.map (writeProducts vars))) := by
  have hname := (hvars.shielded.written_name f).writeProducts_eq
  have hseam : seam vars (maskNames f.name).getLast? (maskNames (parens (joinArguments ps))).head? = [] := by
    cases h : (maskNames f.name).getLast? with
    | none => rfl
    | some c =>
      obtain rfl := eq_mask_of_mem_getLast? (Option.mem_def.mpr h)
      cases (maskNames (parens (joinArguments ps))).head? with
      | none => rfl
      | some d => rw [seam, hvars.shielded.mask_left, if_neg Bool.false_ne_true]
  have hmask : maskNames (f.name ++ parens (joinArguments ps)) =
      maskNames f.name ++ maskNames (parens (joinArguments ps)) :=
    endsWords_open.maskNames_append f.name (joinArguments ps ++ [')'])
  have hparens : writeProducts vars (parens (joinArguments ps)) =
      parens (writeProducts vars (joinArguments ps)) := hvars.shielded.writeProducts_parens _
  rw [writeProducts_append hmask, hseam, hname, hparens, writeProducts_joinArguments hvars]
  rfl

end

theorem compact_joinArguments (ps : List (List Char)) :
    compact (joinArguments ps) = joinArguments (ps.map compact) := by
  match ps with
  | [] => rfl
  | [p] => rfl
  | p :: q :: ps =>
    have ih := compact_joinArguments (q :: ps)
    rw [joinArguments, compact_append Text.isBoundary_comma (by decide), ih]
    rfl

theorem compact_name {f : Func} {word : List Char} (h : word.map Char.toLower = f.name) :
    compact word = f.name := by
  have hascii : ∀ c ∈ word, c.toNat < 128 := by
    intro c hc
    have hlower : c.toLower.toNat < 128 := by
      refine (ascii_name f c.toLower ?_).1
      rw [← h]
      exact List.mem_map_of_mem hc
    by_contra hbig
    rw [Text.toLower_of_not_ascii hbig] at hlower
    exact hbig hlower
  rw [compact, Text.lowerCase_of_ascii hascii, h]
  apply List.filter_eq_self.mpr
  intro c hc
  simpa using (lower_name f c hc).2

namespace Form
variable {vars s : List Char}

theorem ofText_of_uncut (hne : s ≠ []) (h : ∀ t, Uncut t [] 0 s) (hhead : s.head? ≠ some '-') :
    ofText vars s = ofOperand vars s := by
  have hsplit (t : Tier) : split? t s = none := split?_eq_none_iff.mpr (h t)
  have hterm : ofTerm vars s = ofOperand vars s := by
    rw [ofTerm_of_head?_ne hhead, hsplit, hsplit]
  rw [ofText, if_neg hne, hsplit]
  exact hterm

theorem ofText_call (vars : List Char) {f : Func} {ps : List (List Char)} (hps : ∀ p ∈ ps, Closed p)
    (hne : ∀ p ∈ ps, p ≠ []) : ofText vars (f.name ++ parens (joinArguments ps)) = call f ps := by
  have huncut (t : Tier) : Uncut t [] 0 (f.name ++ parens (joinArguments ps)) := by
    refine uncut_append.mpr ⟨uncut_name f t [] _, uncut_parens ?_⟩
    intro l r
    exact (nested_join hps).suffix_nonpos
  have hhead : (f.name ++ parens (joinArguments ps)).head? ≠ some '-' := by
    intro hhead
    have := Derives.isNameStart_head (Option.mem_def.mpr hhead)
    exact absurd this (by decide)
  rw [ofText_of_uncut (by simp [parens]) huncut hhead, ofOperand_of_name vars (by simp [parens, endsWords_open]),
    parens, ofCall_parens, argumentTexts_join hps hne]

end Form

section
variable {vars : List Char} (hvars : IsPlain vars)
include hvars

theorem tryParse_ok_iff {text : List Char} {a : Expr Float} : (tryParse vars text).result = .ok a ↔
    Derives vars (.chain .additive) (writeProducts vars (compact text)) a :=
  reads_iff_derives_writeProducts hvars (isSmall_compact text)

theorem parsePart_call {f : Func} {args : List (List Char × Expr Float)} (hsmall : ∀ p ∈ args, IsSmall p.1)
    (h : ∀ p ∈ args, Reads vars p.1 p.2) :
    (parsePart vars (f.name ++ parens (joinArguments (args.map Prod.fst)))).result =
      Expr.call? f (args.map Prod.snd) := by
  have hderives : ∀ p ∈ args, Derives vars (.chain .additive) (writeProducts vars p.1) p.2 :=
    fun p hp => (reads_iff_derives_writeProducts hvars (hsmall p hp)).mp (h p hp)
  have hunwrap : unwrap? (f.name ++ parens (joinArguments (args.map Prod.fst))) = none := by
    apply unwrap?_eq_none
    intro inner hinner
    have hstart := Derives.isNameStart_head (f := f) (c := '(') (by rw [hinner]; rfl)
    exact absurd hstart (by decide)
  have hform : Form.ofText vars (normal vars (f.name ++ parens (joinArguments (args.map Prod.fst)))) =
      .call f (args.map fun p => writeProducts vars p.1) := by
    rw [normal, strip_of_unwrap?_eq_none hunwrap, writeProducts_call hvars, List.map_map]
    refine Form.ofText_call vars ?_ ?_
    · intro q hq
      obtain ⟨p, hp, rfl⟩ := List.mem_map.mp hq
      exact (hderives p hp).closed hvars
    · intro q hq
      obtain ⟨p, hp, rfl⟩ := List.mem_map.mp hq
      exact (hderives p hp).ne_nil hvars
  have hargs : (parseParts vars (args.map fun p => writeProducts vars p.1)).result =
      .ok (args.map Prod.snd) := by
    rw [result_parseParts, List.forall₂_map_left_iff, List.forall₂_map_right_iff, List.forall₂_same]
    intro p hp
    rw [Reads, parsePart_congr (hvars.shielded.normal_writeProducts p.1)]
    exact h p hp
  rw [parsePart_eq, Attempt.note_bind, hform]
  dsimp only
  rw [Attempt.bind_of_ok _ hargs]
  rfl

end

/-- Formulas in parentheses in a row, under a minus sign and under a name. -/
theorem tryParse_compose {vars : List Char} (hvars : IsPlain vars) {p : List Char × Expr Float}
    {rest : List (Option Op × List Char × Expr Float)} (hp : (tryParse vars p.1).result = .ok p.2)
    (hrest : ∀ q ∈ rest, (tryParse vars q.2.1).result = .ok q.2.2) :
    (tryParse vars (joinParens p.1 (rest.map fun q => (q.1, q.2.1)))).result =
        .ok (precedence .binary p.2 (rest.map fun q => (q.1.getD .multiply, q.2.2))) ∧
      (tryParse vars ('-' :: parens p.1)).result = .ok (.neg p.2) ∧
      ∀ (f : Func) (word : List Char), word.map Char.toLower = f.name →
        (tryParse vars (word ++ parens (joinArguments (p.1 :: rest.map fun q => q.2.1)))).result =
          if f.arity.accepts (rest.length + 1) then .ok (.call f (p.2 :: rest.map fun q => q.2.2))
          else .error (.arityMismatch f (rest.length + 1)) := by
  have hgroup (q : List Char × Expr Float) (hq : (tryParse vars q.1).result = .ok q.2) :
      Derives vars .atom (parens (writeProducts vars (compact q.1))) q.2 :=
    .group ((tryParse_ok_iff hvars).mp hq)
  refine ⟨?_, ?_, ?_⟩
  · have hatoms : ∀ q ∈ rest.map fun q =>
        (q.1.getD .multiply, parens (writeProducts vars (compact q.2.1)), q.2.2),
        Derives vars .atom q.2.1 q.2.2 := List.forall_mem_map.mpr fun q hq => hgroup q.2 (hrest q hq)
    have hrow := Derives.ofRow (p := (parens (writeProducts vars (compact p.1)), p.2)) (hgroup p hp) hatoms
    rw [tryParse_ok_iff hvars, compact_joinParens, writeProducts_joinParens hvars]
    simpa only [mapRow, List.map_map, Function.comp_def] using hrow
  · have hcompact : compact ('-' :: parens p.1) = '-' :: parens (compact p.1) := by
      have hminus := compact_append Text.isBoundary_minus (by decide) [] (parens p.1)
      rwa [compact_parens] at hminus
    have hwrite : writeProducts vars ('-' :: parens (compact p.1)) =
        '-' :: parens (writeProducts vars (compact p.1)) := by
      have hminus := hvars.separates_symbol .subtract
      rw [writeProducts_cons (d := '-') hminus.endsWords hminus.left]
      exact congrArg _ (hvars.shielded.writeProducts_parens _)
    rw [tryParse_ok_iff hvars, hcompact, hwrite]
    exact .base (by decide) (.negation (.ofAtom (hgroup p hp) _))
  · intro f word hword
    let args : List (List Char × Expr Float) := (p :: rest.map Prod.snd).map fun q => (compact q.1, q.2)
    have hargs : ∀ q ∈ args, IsSmall q.1 ∧ Reads vars q.1 q.2 := by
      refine List.forall_mem_map.mpr (List.forall_mem_cons.mpr ⟨⟨isSmall_compact _, hp⟩, ?_⟩)
      exact List.forall_mem_map.mpr fun q hq => ⟨isSmall_compact _, hrest q hq⟩
    have hcompact : compact (word ++ parens (joinArguments (p.1 :: rest.map fun q => q.2.1))) =
        f.name ++ parens (joinArguments (args.map Prod.fst)) := by
      have happend := compact_append_open word (joinArguments (p.1 :: rest.map fun q => q.2.1) ++ [')'])
      have hparens := compact_parens (joinArguments (p.1 :: rest.map fun q => q.2.1))
      rw [compact_joinArguments] at hparens
      have htexts : args.map Prod.fst = (p.1 :: rest.map fun q => q.2.1).map compact := by
        simp [args, Function.comp_def]
      rw [htexts, ← hparens, ← compact_name hword]
      exact happend
    have hcall := parsePart_call hvars (f := f) (fun q hq => (hargs q hq).1) fun q hq => (hargs q hq).2
    rw [result_tryParse, hcompact, hcall]
    simp [args, Expr.call?, Function.comp_def]

theorem tryParse_compose_variable :
    IsPlain ['x'] ∧ (tryParse ['x'] ['X']).result = .ok (.var 0) ∧
      (tryParse ['x'] "(X)-(X)(X)".toList).result =
        .ok (.binary .subtract (.var 0) (.binary .multiply (.var 0) (.var 0))) ∧
      (tryParse ['x'] "-(X)".toList).result = .ok (.neg (.var 0)) ∧
      (tryParse ['x'] "Max(X,X,X)".toList).result = .ok (.call .max [.var 0, .var 0, .var 0]) ∧
      (tryParse ['x'] "SIN(X,X,X)".toList).result = .error (.arityMismatch .sin 3) := by
  have hplain : IsPlain ['x'] := by decide
  have hx : (tryParse ['x'] ['X']).result = .ok (.var 0) := by
    have hcompact : compact ['X'] = ['x'] := by decide +kernel
    rw [tryParse_ok_iff hplain, hcompact, writeProducts_singleton]
    exact .toSum (.slot (by decide) (by decide))
  have hrest : ∀ q ∈ [(some Op.subtract, ['X'], Expr.var 0), (none, ['X'], Expr.var 0)],
      (tryParse ['x'] q.2.1).result = .ok q.2.2 := by simp [hx]
  obtain ⟨hrow, hminus, hcall⟩ := tryParse_compose hplain (p := (['X'], .var 0)) hx hrest
  exact ⟨hplain, hx, hrow, hminus, hcall .max ['M', 'a', 'x'] (by decide), hcall .sin ['S', 'I', 'N'] (by decide)⟩

end PlotFormula.Grammar
