import PlotFormula.Proofs.Grammar.Forms

/-! # Reading by index

The steps of a reading, on texts that are only reached by index. Every index, slice and insertion is checked
against the length of the text and gives nothing out of range, and a loop gives nothing when it runs for too
long. Each step is the step of the same name without indices, so none of them ever goes out of range.
-/
namespace PlotFormula.Grammar

def slice? (s : List Char) (i j : Nat) : Option (List Char) :=
  if i ≤ j ∧ j ≤ s.length then some ((s.take j).drop i) else none

def insert? (s : List Char) (i : Nat) (c : Char) : Option (List Char) :=
  if i ≤ s.length then some (s.take i ++ c :: s.drop i) else none

def fill? (s : List Char) (i j : Nat) (c : Char) : Option (List Char) :=
  if i ≤ j ∧ j ≤ s.length then some (s.take i ++ List.replicate (j - i) c ++ s.drop j) else none

theorem slice?_append {s l m r : List Char} {i j : Nat} (hs : s = l ++ m ++ r) (hi : i = l.length)
    (hj : j = l.length + m.length) : slice? s i j = some m := by
  subst hs hi hj
  have htake : (l ++ m ++ r).take (l.length + m.length) = l ++ m := by
    rw [← List.length_append, List.take_left]
  rw [slice?, if_pos (by simp), htake, List.drop_left]

theorem insert?_append {s l r : List Char} {i : Nat} (hs : s = l ++ r) (hi : i = l.length) (c : Char) :
    insert? s i c = some (l ++ c :: r) := by
  subst hs hi
  rw [insert?, if_pos (by simp), List.take_left, List.drop_left]

theorem fill?_append {s l m r : List Char} {i j : Nat} (hs : s = l ++ m ++ r) (hi : i = l.length)
    (hj : j = l.length + m.length) (c : Char) :
    fill? s i j c = some (l ++ List.replicate m.length c ++ r) := by
  subst hs hi hj
  have hdrop : (l ++ m ++ r).drop (l.length + m.length) = r := by
    rw [← List.length_append, List.drop_left]
  have htake : (l ++ m ++ r).take l.length = l := by rw [List.append_assoc, List.take_left]
  rw [fill?, if_pos (by simp), hdrop, htake, Nat.add_sub_cancel_left]

def unwrapAt? (s : List Char) : Option (Option (List Char)) :=
  if s.length < 2 then some none
  else do
    let first ← s[0]?
    let last ← s[s.length - 1]?
    if first = '(' ∧ last = ')' then
      let inner ← slice? s 1 (s.length - 1)
      some (if staysOpen 1 inner.reverse then some inner else none)
    else some none

def stripAt? : Nat → List Char → Option (List Char)
  | 0, _ => none
  | n + 1, s => do
    match ← unwrapAt? s with
    | some inner => stripAt? n inner
    | none => some s

theorem unwrapAt?_eq (s : List Char) : unwrapAt? s = some (unwrap? s) := by
  match s with
  | [] => rfl
  | [c] =>
    have hnone : unwrap? [c] = none := unwrap?_eq_none (by simp)
    rw [hnone]
    rfl
  | c :: d :: t =>
    obtain ⟨u, e, hu⟩ : ∃ u e, d :: t = u ++ [e] :=
      ⟨_, _, (List.dropLast_concat_getLast (List.cons_ne_nil d t)).symm⟩
    rw [hu, ← List.cons_append]
    have hlen : (c :: u ++ [e]).length - 1 = (c :: u).length := by simp
    have hlast : (c :: u ++ [e])[(c :: u ++ [e]).length - 1]? = some e := by
      rw [hlen]
      exact getElem?_length (c :: u) [] e
    have hslice : slice? (c :: u ++ [e]) 1 ((c :: u ++ [e]).length - 1) = some u :=
      slice?_append (l := [c]) (r := [e]) rfl rfl (by simp; omega)
    have hpair : unwrap? (c :: u ++ [e]) =
        if c = '(' ∧ e = ')' then if staysOpen 1 u.reverse then some u else none else none := by
      by_cases h : c = '(' ∧ e = ')'
      · obtain ⟨rfl, rfl⟩ := h
        rw [if_pos ⟨rfl, rfl⟩, unwrap?_parens]
      · rw [if_neg h]
        apply unwrap?_eq_none
        intro inner hinner
        obtain ⟨rfl, htail⟩ := List.cons.inj hinner
        exact h ⟨rfl, (List.cons.inj (List.append_inj_right' htail rfl)).1⟩
    rw [unwrapAt?, if_neg (by simp), hlast, hslice, hpair]
    show (if c = '(' ∧ e = ')' then _ else _) = _
    split <;> rfl

theorem stripAt?_eq {n : Nat} {s : List Char} (h : s.length < n) : stripAt? n s = some (strip s) := by
  induction n generalizing s with
  | zero => exact absurd h (Nat.not_lt_zero _)
  | succ n ih =>
    rw [stripAt?, unwrapAt?_eq]
    cases hs : unwrap? s with
    | none => rw [strip_of_unwrap?_eq_none hs]; rfl
    | some inner =>
      have hlen := congrArg List.length (eq_of_unwrap? hs)
      rw [List.length_cons, List.length_append] at hlen
      rw [strip_of_unwrap?_eq_some hs]
      exact ih (by omega)

def firstWordAt? (s : List Char) : Option (List Char) :=
  match s.head? with
  | none => some []
  | some c => if isNameStart c then slice? s 0 (s.findIdx fun d => !isNamePart d) else some []

theorem firstWordAt?_eq (s : List Char) : firstWordAt? s = some (firstWord s) := by
  cases s with
  | nil => rfl
  | cons c s =>
    show (if isNameStart c then slice? (c :: s) 0 ((c :: s).findIdx fun d => !isNamePart d) else some []) = _
    rw [firstWord]
    by_cases hc : isNameStart c = true
    · have hle : (c :: s).findIdx (fun d => !isNamePart d) ≤ (c :: s).length := List.findIdx_le_length
      rw [if_pos hc, if_pos hc, slice?, if_pos ⟨Nat.zero_le _, hle⟩, List.drop_zero,
        ← List.takeWhile_eq_take_findIdx_not, List.takeWhile_cons_of_pos (isNamePart_of_isNameStart hc)]
    · rw [if_neg hc, if_neg hc]

/-- Overwrites the names of the catalog in the `n` places from `i` on. -/
def maskAt? : Nat → Nat → List Char → Option (List Char)
  | 0, _, s => some s
  | n + 1, i, s => do
    let rest ← slice? s i s.length
    let word ← firstWordAt? rest
    if word = [] then maskAt? n (i + 1) s
    else
      let name ← slice? s i (i + word.length)
      let masked ← if isName name then fill? s i (i + word.length) '_' else some s
      maskAt? n (i + 1) masked

theorem isName_replicate (n : Nat) : isName (List.replicate n '_') = false := by
  have hname (f : Func) : f.name ≠ [] ∧ '_' ∉ f.name := by
    cases f <;> decide
  rw [isName]
  cases hf : Func.lookup? (List.replicate n '_') with
  | none => rfl
  | some f =>
    obtain ⟨hne, hmem⟩ := hname f
    rw [Func.name_of_lookup? hf, List.map_replicate] at hne hmem
    have hn : n ≠ 0 := by
      rintro rfl
      exact hne rfl
    exact absurd (List.mem_replicate.mpr ⟨hn, rfl⟩) hmem

theorem firstWord_replicate (k : Nat) {s : List Char} (hs : ∀ c ∈ s.head?, isNamePart c = false) :
    firstWord ('_' :: (List.replicate k '_' ++ s)) = List.replicate (k + 1) '_' := by
  have hword : ∀ c ∈ List.replicate k '_', isNamePart c = true := by
    intro c hc
    obtain rfl := List.eq_of_mem_replicate hc
    decide
  have htake : s.takeWhile isNamePart = [] := by
    cases s with
    | nil => rfl
    | cons c s => exact List.takeWhile_cons_of_neg (Bool.eq_false_iff.mp (hs c rfl))
  rw [firstWord, if_pos (by decide), List.takeWhile_append_of_pos hword, htake, List.append_nil,
    List.replicate_succ]

def maskWord (s : List Char) : List Char :=
  if isName (firstWord s) then
    List.replicate (firstWord s).length '_' ++ s.drop (firstWord s).length
  else s

theorem maskAt?_succ (n : Nat) (l : List Char) (c : Char) (s : List Char) :
    maskAt? (n + 1) l.length (l ++ c :: s) = maskAt? n (l.length + 1) (l ++ maskWord (c :: s)) := by
  have hrest : slice? (l ++ c :: s) l.length (l ++ c :: s).length = some (c :: s) :=
    slice?_append (r := []) (by simp) rfl (by simp)
  have hword := firstWord_append_drop (c :: s)
  have hcut : l ++ c :: s = l ++ firstWord (c :: s) ++ (c :: s).drop (firstWord (c :: s)).length := by
    rw [List.append_assoc, hword]
  have hname := slice?_append hcut rfl rfl
  have hfill := fill?_append hcut rfl rfl '_'
  rw [maskAt?, hrest]
  simp only [Option.bind_eq_bind, Option.bind_some, firstWordAt?_eq, hname, hfill, maskWord]
  by_cases hnil : firstWord (c :: s) = []
  · rw [if_pos hnil, hnil, isName_nil]
    rfl
  · rw [if_neg hnil]
    split
    next => rw [List.append_assoc]
    next => rfl

/-- The loop goes through the text with some characters of a name still hidden ahead of it. -/
theorem maskAt?_hidden {k : Nat} {s : List Char} (hk : k ≤ s.length)
    (hs : 0 < k → ∀ c ∈ (s.drop k).head?, isNamePart c = false) (l : List Char) :
    maskAt? s.length l.length (l ++ (List.replicate k '_' ++ s.drop k)) = some (l ++ maskFrom k s) := by
  induction s generalizing k l with
  | nil =>
    obtain rfl : k = 0 := Nat.le_zero.mp hk
    rfl
  | cons c s ih =>
    -- What one turn of the loop leaves behind: the character `d`, and `k` hidden ones ahead of it.
    have step {d : Char} {t : List Char} {k : Nat} (hk : k ≤ s.length)
        (hs : 0 < k → ∀ c ∈ (s.drop k).head?, isNamePart c = false)
        (ht : maskWord t = d :: (List.replicate k '_' ++ s.drop k)) (hne : t ≠ []) :
        maskAt? (c :: s).length l.length (l ++ t) = some (l ++ d :: maskFrom k s) := by
      obtain ⟨e, u, rfl⟩ := List.exists_cons_of_ne_nil hne
      have := ih hk hs (l ++ [d])
      rw [List.length_cons, maskAt?_succ, ht]
      simpa using this
    cases k with
    | succ k =>
      have hk : k ≤ s.length := Nat.le_of_succ_le_succ hk
      have hs : ∀ c ∈ (s.drop k).head?, isNamePart c = false := hs (Nat.succ_pos k)
      rw [maskFrom, List.replicate_succ, List.drop_succ_cons, List.cons_append]
      -- The hidden characters that are left are a word for the loop, but no name.
      refine step hk (fun _ => hs) ?_ (List.cons_ne_nil _ _)
      rw [maskWord, firstWord_replicate k hs, isName_replicate, if_neg Bool.false_ne_true]
    | zero =>
      have hmask : maskFrom 0 (c :: s) =
          if isName (firstWord (c :: s)) then '_' :: maskFrom ((firstWord (c :: s)).length - 1) s
          else c :: maskFrom 0 s := rfl
      rw [hmask, List.replicate_zero, List.nil_append, List.drop_zero]
      by_cases hname : isName (firstWord (c :: s)) = true
      · have hword : firstWord (c :: s) = c :: s.takeWhile isNamePart := by
          rw [firstWord]
          split
          next => rfl
          next hc => rw [firstWord, if_neg hc] at hname; simp at hname
        have hlen : (firstWord (c :: s)).length - 1 = (s.takeWhile isNamePart).length := by rw [hword]; rfl
        have hdrop : s.drop (s.takeWhile isNamePart).length = s.dropWhile isNamePart := by
          have := congrArg (List.drop (s.takeWhile isNamePart).length)
            (List.takeWhile_append_dropWhile (p := isNamePart) (l := s))
          rw [List.drop_left] at this
          exact this.symm
        rw [if_pos hname, hlen]
        refine step (List.takeWhile_prefix _).length_le ?_ ?_ (List.cons_ne_nil _ _)
        · intro _ d hd
          rw [hdrop] at hd
          have := List.head?_dropWhile_not isNamePart s
          rwa [hd] at this
        · rw [maskWord, if_pos hname, hword]
          rfl
      · rw [if_neg hname]
        refine step (Nat.zero_le _) (by simp) ?_ (List.cons_ne_nil _ _)
        rw [maskWord, if_neg hname]
        rfl

theorem maskAt?_eq (s : List Char) : maskAt? s.length 0 s = some (maskNames s) :=
  maskAt?_hidden (k := 0) (Nat.zero_le s.length) (by simp) []

/-- Whether a product is asked for between two neighbours, when any entry of the table is a variable. -/
def asksProduct (vars : List Char) (c d : Char) : Bool :=
  let number (c : Char) : Bool := c.isDigit || c == '.' || vars.contains c
  (number c && (d == '(' || vars.contains d)) || (number d && (c == ')' || c == 'x')) || (c == ')' && d == '(')

theorem asksProduct_eq {vars : List Char} (h : '*' ∉ vars) (c d : Char) :
    asksProduct vars c d = impliesProduct vars c d := by
  have hvariable (c : Char) : isVariable vars c = vars.contains c := by
    by_cases hc : c = '*'
    · subst hc
      simp [isVariable, h]
    · simp [isVariable, hc]
  simp only [asksProduct, impliesProduct, isFactor, hvariable]

/-- Writes the products from place `i` on. The text and its mask grow with every star. -/
def insertAt? (vars : List Char) : Nat → Nat → List Char → List Char → Option (List Char)
  | 0, _, _, _ => none
  | n + 1, i, out, masked =>
    if i + 1 < out.length then do
      let c ← masked[i]?
      let d ← masked[i + 1]?
      if asksProduct vars c d then
        let out ← insert? out (i + 1) '*'
        let masked ← insert? masked (i + 1) '*'
        insertAt? vars n (i + 1) out masked
      else insertAt? vars n (i + 1) out masked
    else some out

theorem insertAt?_succ (vars : List Char) (n : Nat) {l m : List Char} (hlm : m.length = l.length)
    (p q : Char × Char) (s : List (Char × Char)) :
    insertAt? vars (n + 1) l.length (l ++ (p :: q :: s).map Prod.fst) (m ++ (p :: q :: s).map Prod.snd) =
      let rest := if asksProduct vars p.2 q.2 then ('*', '*') :: q :: s else q :: s
      insertAt? vars n (l ++ [p.1]).length (l ++ [p.1] ++ rest.map Prod.fst)
        (m ++ [p.2] ++ rest.map Prod.snd) := by
  have hfirst : (m ++ (p :: q :: s).map Prod.snd)[l.length]? = some p.2 := by
    rw [← hlm]
    exact getElem?_length m _ _
  have hsecond : (m ++ (p :: q :: s).map Prod.snd)[l.length + 1]? = some q.2 := by
    simp [← hlm]
  have hout : insert? (l ++ (p :: q :: s).map Prod.fst) (l.length + 1) '*' =
      some (l ++ [p.1] ++ '*' :: (q :: s).map Prod.fst) :=
    insert?_append (by simp) (by simp) '*'
  have hmasked : insert? (m ++ (p :: q :: s).map Prod.snd) (l.length + 1) '*' =
      some (m ++ [p.2] ++ '*' :: (q :: s).map Prod.snd) :=
    insert?_append (by simp) (by simp [hlm]) '*'
  rw [insertAt?, if_pos (by simp), hfirst, hsecond, hout, hmasked]
  simp only [Option.bind_eq_bind, Option.bind_some]
  split
  next => simp
  next => simp

/-- The loop is at its end after two steps for each character that it has not passed. -/
theorem insertAt?_append {vars : List Char} (hstar : '*' ∉ vars) {s : List (Char × Char)} {n : Nat}
    (hn : 2 * s.length < n) {l m : List Char} (hlm : m.length = l.length) :
    insertAt? vars n l.length (l ++ s.map Prod.fst) (m ++ s.map Prod.snd) =
      some (l ++ insertProducts vars s) := by
  induction s generalizing n l m with
  | nil =>
    obtain ⟨n, rfl⟩ := Nat.exists_eq_add_one_of_ne_zero (Nat.ne_of_gt (Nat.lt_of_le_of_lt (Nat.zero_le _) hn))
    rw [insertAt?, if_neg (by simp)]
    rfl
  | cons p s ih =>
    obtain ⟨n, rfl⟩ := Nat.exists_eq_add_one_of_ne_zero (Nat.ne_of_gt (Nat.lt_of_le_of_lt (Nat.zero_le _) hn))
    cases s with
    | nil =>
      rw [insertAt?, if_neg (by simp)]
      rfl
    | cons q s =>
      rw [List.length_cons] at hn
      rw [insertAt?_succ vars n hlm, asksProduct_eq hstar, insertProducts]
      dsimp only
      have hlm' : (m ++ [p.2]).length = (l ++ [p.1]).length := by simp [hlm]
      split
      next =>
        -- A second turn for the star, which implies no product itself.
        obtain ⟨n, rfl⟩ : ∃ k, n = k + 1 := ⟨n - 1, by omega⟩
        rw [insertAt?_succ vars n hlm', asksProduct_eq hstar, impliesProduct_star_left,
          if_neg Bool.false_ne_true]
        dsimp only
        rw [ih (by omega) (by simp [hlm])]
        simp
      next =>
        rw [ih (by omega) hlm']
        simp

theorem insertAt?_eq {vars : List Char} (hstar : '*' ∉ vars) (s : List Char) :
    insertAt? vars (2 * s.length + 1) 0 s (maskNames s) = some (writeProducts vars s) := by
  have hfst : (s.zip (maskNames s)).map Prod.fst = s := List.map_fst_zip (by simp)
  have hsnd : (s.zip (maskNames s)).map Prod.snd = maskNames s := List.map_snd_zip (by simp)
  have hlen : (s.zip (maskNames s)).length = s.length := by simp
  have := insertAt?_append hstar (s := s.zip (maskNames s)) (n := 2 * s.length + 1) (l := []) (m := [])
    (by omega) rfl
  rwa [hfst, hsnd] at this

def isBinaryAt? (s : List Char) (c : Char) (i : Nat) : Option Bool :=
  if i = 0 then some false
  else do
    let d ← s[i - 1]?
    if isOperator d then some false
    else if (c = '+' ∨ c = '-') ∧ d = 'e' ∧ 2 ≤ i then
      let e ← s[i - 2]?
      some (!e.isDigit)
    else some true

def isCutAt? (t : Tier) (s : List Char) (c : Char) (level : Int) (i : Nat) : Option Bool :=
  if level = 0 ∧ (t.opOf? c).isSome then isBinaryAt? s c i else some false

/-- Searches the places below `i` for an operator of the tier, from right to left, with the level counted without a
bound (see `bracket`). -/
def splitAt? (t : Tier) (s : List Char) : Nat → Int → Option (Option Nat)
  | 0, _ => some none
  | i + 1, level => do
    let c ← s[i]?
    if ← isCutAt? t s c level i then some (some i) else splitAt? t s i (level - bracket c)

theorem isBinaryAt?_eq (c : Char) (before right : List Char) :
    isBinaryAt? (before.reverse ++ c :: right) c before.length = some (isBinaryAfter c before) := by
  match before with
  | [] => rfl
  | [d] =>
    have hsign : isExponentSign c [d] = false := by
      unfold isExponentSign
      split
      next h => simp at h
      next => rfl
    rw [isBinaryAfter, hsign]
    cases hd : isOperator d <;> simp [isBinaryAt?, hd]
  | d :: e :: before =>
    have hd : ((d :: e :: before).reverse ++ c :: right)[(d :: e :: before).length - 1]? = some d := by
      simp
    have he : ((d :: e :: before).reverse ++ c :: right)[(d :: e :: before).length - 2]? = some e := by
      simp
    rw [isBinaryAt?, if_neg (by simp), hd, he]
    simp only [Option.bind_eq_bind, Option.bind_some]
    cases hop : isOperator d with
    | true => simp [isBinaryAfter, hop]
    | false =>
      by_cases hde : d = 'e'
      · subst hde
        have hsign : isExponentSign c ('e' :: e :: before) = ((c == '+' || c == '-') && e.isDigit) := rfl
        rw [isBinaryAfter, hop, hsign]
        by_cases hc : c = '+' ∨ c = '-'
        · have : (c == '+' || c == '-') = true := by simpa using hc
          simp [hc, this]
        · have : (c == '+' || c == '-') = false := by simpa using hc
          simp [hc, this]
      · simp [isBinaryAfter, hop, hde, isExponentSign_of_ne hde]

theorem splitAt?_eq (t : Tier) (before right : List Char) (level : Int) :
    splitAt? t (before.reverse ++ right) before.length level =
      some ((splitFrom t level right before).map Split.position) := by
  induction before generalizing right level with
  | nil => rfl
  | cons c before ih =>
    have hchar : (before.reverse ++ c :: right)[before.length]? = some c := by
      have := getElem?_length before.reverse right c
      rwa [List.length_reverse] at this
    have hcut : (c :: before).reverse ++ right = before.reverse ++ c :: right := by simp
    have hiscut : isCutAt? t (before.reverse ++ c :: right) c level before.length =
        some (if level = 0 ∧ isBinaryAfter c before then t.opOf? c else none).isSome := by
      rw [isCutAt?, isBinaryAt?_eq]
      cases t.opOf? c <;> by_cases hlevel : level = 0 <;> cases isBinaryAfter c before <;> simp [hlevel]
    rw [List.length_cons, hcut, splitAt?, hchar, splitFrom]
    simp only [Option.bind_eq_bind, Option.bind_some, hiscut]
    cases (if level = 0 ∧ isBinaryAfter c before then t.opOf? c else none) with
    | none => exact ih _ _
    | some op => simp [Split.position]

/-- Cuts the text at its commas, from the place `i` on with `rest` still to be read. The argument being
read begins at `start`, and the level is counted without a bound (see `bracket`). -/
def argumentsAt? (s : List Char) (start : Nat) (level : Int) : Nat → List Char → Option (List (List Char))
  | _, [] => do
    let arg ← slice? s start s.length
    some [arg]
  | i, c :: rest =>
    if c = ',' ∧ level = 0 then do
      let arg ← slice? s start i
      let args ← argumentsAt? s (i + 1) level (i + 1) rest
      some (arg :: args)
    else argumentsAt? s start (level + bracket c) (i + 1) rest

theorem argumentsAt?_eq {s l arg rest : List Char} (hs : s = l ++ arg ++ rest) (level : Int) :
    argumentsAt? s l.length level (l.length + arg.length) rest =
      some (arg.foldr consFirst (splitArgumentsFrom level rest)) := by
  induction rest generalizing l arg level with
  | nil =>
    have hslice := slice?_append hs rfl (j := s.length) (by simp [hs])
    rw [argumentsAt?, hslice, splitArgumentsFrom, foldr_consFirst, List.append_nil]
    rfl
  | cons c rest ih =>
    rw [argumentsAt?, splitArgumentsFrom]
    by_cases hc : c = ',' ∧ level = 0
    · obtain ⟨rfl, rfl⟩ := hc
      have hslice := slice?_append hs rfl rfl
      have hrest := ih (l := l ++ arg ++ [',']) (show s = l ++ arg ++ [','] ++ [] ++ rest by simp [hs]) 0
      simp only [List.length_append, List.length_cons, List.length_nil, Nat.zero_add, Nat.add_zero] at hrest
      rw [if_pos ⟨rfl, rfl⟩, if_pos ⟨rfl, rfl⟩, hslice, hrest, foldr_consFirst, List.append_nil]
      rfl
    · have hrest := ih (show s = l ++ (arg ++ [c]) ++ rest by simp [hs]) (level + bracket c)
      rw [List.length_append, List.length_singleton, ← Nat.add_assoc] at hrest
      rw [if_neg hc, if_neg hc, hrest, List.foldr_append]
      rfl

def argumentTextsAt? (s : List Char) : Option (List (List Char)) :=
  if s = [] then some [] else argumentsAt? s 0 0 0 s

theorem argumentTextsAt?_eq (s : List Char) : argumentTextsAt? s = some (argumentTexts s) := by
  rw [argumentTextsAt?, argumentTexts]
  by_cases hs : s = []
  · rw [if_pos hs, if_pos hs]
  · rw [if_neg hs, if_neg hs]
    exact argumentsAt?_eq (l := []) (show s = [] ++ [] ++ s from rfl) 0

def callAt? (f : Func) (s : List Char) (n : Nat) : Option Form :=
  if n = s.length then some (.call f [])
  else do
    let first ← s[n]?
    if first = '(' then
      let last ← s[s.length - 1]?
      if last = ')' then
        let inner ← slice? s (n + 1) (s.length - 1)
        let args ← argumentTextsAt? inner
        some (.call f args)
      else some .brokenCall
    else some .brokenCall

def operandAt? (vars s : List Char) : Option Form := do
  let word ← firstWordAt? s
  match Func.lookup? word with
  | some f => callAt? f s word.length
  | none =>
    match Form.slotOfText? vars s with
    | some i => some (.slot i)
    | none =>
      match Form.numberOfText? s with
      | some x => some (.number x)
      | none => some .unknown

def operationAt? (s : List Char) (i : Nat) : Option Form := do
  let c ← s[i]?
  let op ← Op.ofSymbol? c
  let left ← slice? s 0 i
  let right ← slice? s (i + 1) s.length
  some (.operation ⟨left, op, right⟩)

def formAt? (vars s : List Char) : Option Form :=
  if s = [] then some .blank
  else do
    match ← splitAt? .additive s s.length 0 with
    | some i => operationAt? s i
    | none =>
      let first ← s[0]?
      if first = '-' then
        let inner ← slice? s 1 s.length
        some (.negation inner)
      else
        match ← splitAt? .multiplicative s s.length 0 with
        | some i => operationAt? s i
        | none =>
          match ← splitAt? .power s s.length 0 with
          | some i => operationAt? s i
          | none => operandAt? vars s

theorem callAt?_eq (f : Func) (word t : List Char) :
    callAt? f (word ++ t) word.length = some (Form.ofCall f t) := by
  match t with
  | [] =>
    rw [List.append_nil, callAt?, if_pos rfl]
    rfl
  | c :: t =>
    have hfirst := getElem?_length word t c
    rw [callAt?, if_neg (by simp), hfirst]
    simp only [Option.bind_eq_bind, Option.bind_some]
    by_cases hc : c = '('
    · subst hc
      rw [if_pos rfl, Form.ofCall]
      rcases List.eq_nil_or_concat t with rfl | ⟨u, e, rfl⟩
      · simp
      · have hlen : (word ++ '(' :: (u ++ [e])).length - 1 = (word ++ '(' :: u).length := by simp
        have hlast : (word ++ '(' :: (u ++ [e]))[(word ++ '(' :: (u ++ [e])).length - 1]? = some e := by
          rw [hlen]
          simp
        have hinner : slice? (word ++ '(' :: (u ++ [e])) (word.length + 1)
            ((word ++ '(' :: (u ++ [e])).length - 1) = some u :=
          slice?_append (l := word ++ ['(']) (r := [e]) (by simp) (by simp) (by simp; omega)
        rw [List.concat_eq_append, hlast, hinner]
        simp only [Option.bind_some, argumentTextsAt?_eq, List.getLast?_concat, Option.some.injEq,
          List.dropLast_concat]
        split <;> rfl
    · rw [if_neg hc]
      unfold Form.ofCall
      split
      next h => simp at h
      next h => exact absurd (List.cons.inj h).1 hc
      next => rfl

theorem operandAt?_eq (vars s : List Char) : operandAt? vars s = some (Form.ofOperand vars s) := by
  rw [operandAt?, firstWordAt?_eq]
  simp only [Option.bind_eq_bind, Option.bind_some]
  cases hf : Func.lookup? (firstWord s) with
  | none =>
    rw [Form.ofOperand_of_none hf]
    cases Form.slotOfText? vars s with
    | some i => rfl
    | none => cases Form.numberOfText? s <;> rfl
  | some f =>
    have := callAt?_eq f (firstWord s) (s.drop (firstWord s).length)
    rw [firstWord_append_drop] at this
    simp only [Form.ofOperand, hf]
    exact this

theorem operationAt?_eq {t : Tier} {s : List Char} {r : Split} (h : split? t s = some r) :
    operationAt? s r.position = some (.operation r) := by
  obtain rfl := whole_split? h
  have hchar := getElem?_length r.left r.right r.op.symbol
  have hleft : slice? r.whole 0 r.left.length = some r.left :=
    slice?_append (l := []) (r := r.op.symbol :: r.right) rfl rfl (by simp)
  have hright : slice? r.whole (r.left.length + 1) r.whole.length = some r.right :=
    slice?_append (l := r.left ++ [r.op.symbol]) (r := []) (by simp [Split.whole]) (by simp)
      (by simp [Split.whole]; omega)
  rw [operationAt?, Split.position, hleft, hright, Split.whole, hchar]
  simp

theorem formAt?_eq (vars s : List Char) : formAt? vars s = some (Form.ofText vars s) := by
  have hsplit (t : Tier) : splitAt? t s s.length 0 = some ((split? t s).map Split.position) := by
    have := splitAt?_eq t s.reverse [] 0
    simpa [split?] using this
  rw [formAt?, Form.ofText]
  by_cases hs : s = []
  · rw [if_pos hs, if_pos hs]
  · obtain ⟨c, u, rfl⟩ := List.exists_cons_of_ne_nil hs
    rw [if_neg hs, if_neg hs, hsplit, hsplit, hsplit]
    simp only [Option.bind_eq_bind, Option.bind_some]
    cases hsum : split? .additive (c :: u) with
    | some r => exact operationAt?_eq hsum
    | none =>
      have hslice : slice? (c :: u) 1 (c :: u).length = some u :=
        slice?_append (l := [c]) (r := []) (by simp) rfl (by simp; omega)
      simp only [Option.map_none, List.getElem?_cons_zero, Option.bind_some, hslice]
      by_cases hc : c = '-'
      · subst hc
        rfl
      · rw [if_neg hc, Form.ofTerm_of_head?_ne (by simpa using hc)]
        cases hproduct : split? .multiplicative (c :: u) with
        | some r => exact operationAt?_eq hproduct
        | none =>
          cases hpower : split? .power (c :: u) with
          | some r => exact operationAt?_eq hpower
          | none => exact operandAt?_eq vars (c :: u)

end PlotFormula.Grammar
