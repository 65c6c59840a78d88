import PlotFormula.Catalog.Arity

/-! # The catalog of functions

The functions that a formula may call, their names and their arities. The order of the catalog is the
order of the constructors, and a function's place in it never changes.
-/
namespace PlotFormula

inductive Func where
  | abs | arccos | arccot | arccsc | arcsec | arcsin | arctan | ceil | cos | cot | csc | floor
  | max | min | mod | round | sec | sin | sqr | sqrt | tan | exp | ln | pi | e
deriving DecidableEq, Repr

namespace Func

def all : List Func :=
  [abs, arccos, arccot, arccsc, arcsec, arcsin, arctan, ceil, cos, cot, csc, floor,
    max, min, mod, round, sec, sin, sqr, sqrt, tan, exp, ln, pi, e]

theorem mem_all (f : Func) : f ∈ all := by
  cases f <;> decide

def name : Func → List Char
  | abs => ['a', 'b', 's']
  | arccos => ['a', 'r', 'c', 'c', 'o', 's']
  | arccot => ['a', 'r', 'c', 'c', 'o', 't']
  | arccsc => ['a', 'r', 'c', 'c', 's', 'c']
  | arcsec => ['a', 'r', 'c', 's', 'e', 'c']
  | arcsin => ['a', 'r', 'c', 's', 'i', 'n']
  | arctan => ['a', 'r', 'c', 't', 'a', 'n']
  | ceil => ['c', 'e', 'i', 'l']
  | cos => ['c', 'o', 's']
  | cot => ['c', 'o', 't']
  | csc => ['c', 's', 'c']
  | floor => ['f', 'l', 'o', 'o', 'r']
  | max => ['m', 'a', 'x']
  | min => ['m', 'i', 'n']
  | mod => ['m', 'o', 'd']
  | round => ['r', 'o', 'u', 'n', 'd']
  | sec => ['s', 'e', 'c']
  | sin => ['s', 'i', 'n']
  | sqr => ['s', 'q', 'r']
  | sqrt => ['s', 'q', 'r', 't']
  | tan => ['t', 'a', 'n']
  | exp => ['e', 'x', 'p']
  | ln => ['l', 'n']
  | pi => ['p', 'i']
  | e => ['e']

def arity : Func → Arity
  | pi | e => .exactly 0
  | mod => .exactly 2
  | max | min => .atLeast 1
  | _ => .exactly 1

/-- The function of a name, in any mixture of ASCII capitals and small letters. -/
def lookup? (word : List Char) : Option Func :=
  all.find? fun f => f.name = word.map Char.toLower

def index (f : Func) : Nat := all.idxOf f

def ofIndex? (i : Nat) : Option Func := all[i]?

theorem name_of_lookup? {word : List Char} {f : Func} (h : lookup? word = some f) :
    f.name = word.map Char.toLower := by
  simpa using List.find?_some h

theorem lookup?_name (f : Func) : lookup? f.name = some f := by
  cases f <;> decide

@[simp] theorem ofIndex?_index (f : Func) : ofIndex? f.index = some f := by
  cases f <;> decide

/-- A catalog entry written as a record of its name and its arity. -/
def entryText (f : Func) : String :=
  let arityText := match f.arity with
    | .exactly n => "Fixed(" ++ toString n ++ ")"
    | .atLeast n => "Variadic \x7b min: " ++ toString n ++ " \x7d"
  "FunctionDef \x7b name: \"" ++ String.ofList f.name ++ "\", arity: " ++ arityText ++ " \x7d"

end Func
end PlotFormula
