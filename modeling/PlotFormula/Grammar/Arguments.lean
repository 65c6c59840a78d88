/-! # Argument lists

The text between the parentheses of a call is cut at the commas that stand outside all further
parentheses. Joining the pieces with commas gives the text back.
-/
namespace PlotFormula.Grammar

/-- By how much a character raises the level of parentheses, from left to right. Here and in all searches below a
level is counted without a bound. A count in 32 bits with a sign comes to the same levels in every text of fewer
than 2^31 parentheses, since no level exceeds their number (`natAbs_level_le_of_isInfix`); of longer texts what is
proved with these levels does not speak for such a count. -/
def bracket (c : Char) : Int :=
  if c = '(' then 1 else if c = ')' then -1 else 0

def consFirst (c : Char) : List (List Char) → List (List Char)
  | [] => [[c]]
  | p :: ps => (c :: p) :: ps

/-- Continues the cutting at a level of parentheses, which is counted without a bound. -/
def splitArgumentsFrom (level : Int) : List Char → List (List Char)
  | [] => [[]]
  | c :: s =>
    if c = ',' ∧ level = 0 then [] :: splitArgumentsFrom 0 s
    else consFirst c (splitArgumentsFrom (level + bracket c) s)

def splitArguments (s : List Char) : List (List Char) := splitArgumentsFrom 0 s

def joinArguments : List (List Char) → List Char
  | [] => []
  | [p] => p
  | p :: q :: ps => p ++ ',' :: joinArguments (q :: ps)

/-- The argument texts of a call. Nothing between the parentheses means no arguments, not an empty
one. -/
def argumentTexts (s : List Char) : List (List Char) :=
  if s = [] then [] else splitArguments s

theorem splitArgumentsFrom_ne_nil (level : Int) (s : List Char) : splitArgumentsFrom level s ≠ [] := by
  cases s with
  | nil => simp [splitArgumentsFrom]
  | cons c s =>
    rw [splitArgumentsFrom]
    split
    · simp
    · cases splitArgumentsFrom (level + bracket c) s <;> simp [consFirst]

theorem join_consFirst (c : Char) {ps : List (List Char)} (h : ps ≠ []) :
    joinArguments (consFirst c ps) = c :: joinArguments ps := by
  match ps with
  | [] => exact absurd rfl h
  | [p] => rfl
  | p :: q :: ps => rfl

theorem join_nil_cons {ps : List (List Char)} (h : ps ≠ []) :
    joinArguments ([] :: ps) = ',' :: joinArguments ps := by
  cases ps with
  | nil => exact absurd rfl h
  | cons p ps => rfl

theorem join_splitArgumentsFrom (level : Int) (s : List Char) :
    joinArguments (splitArgumentsFrom level s) = s := by
  induction s generalizing level with
  | nil => rfl
  | cons c s ih =>
    rw [splitArgumentsFrom]
    split
    next h => rw [join_nil_cons (splitArgumentsFrom_ne_nil 0 s), ih, h.1]
    next => rw [join_consFirst c (splitArgumentsFrom_ne_nil _ s), ih]

end PlotFormula.Grammar
