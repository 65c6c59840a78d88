/-! # Decimal text

Decimals as they are written, digits with at most one point and an optional exponent, and the double
that is nearest to one.
-/
namespace PlotFormula

structure Decimal where
  coefficient : Nat
  exponent : Int
deriving DecidableEq, Repr

namespace Decimal

/-- The nearest double; of two that are equally near, the one with the even significand. -/
def toDouble (d : Decimal) : Float :=
  .ofModel (.ofScientific d.coefficient d.exponent)

def natOfDigits (ds : List Char) : Nat :=
  ds.foldl (fun n c => 10 * n + (c.toNat - '0'.toNat)) 0

def natOfText? (s : List Char) : Option Nat :=
  if s ≠ [] ∧ s.all Char.isDigit then some (natOfDigits s) else none

def exponentOfText? : List Char → Option Int
  | [] => some 0
  | 'e' :: '-' :: s => (natOfText? s).map fun n : Nat => -(n : Int)
  | 'e' :: '+' :: s => (natOfText? s).map fun n : Nat => (n : Int)
  | 'e' :: s => (natOfText? s).map fun n : Nat => (n : Int)
  | _ => none

def fractionOfText : List Char → List Char × List Char
  | '.' :: s => (s.takeWhile Char.isDigit, s.dropWhile Char.isDigit)
  | s => ([], s)

/-- Reads an unsigned decimal: digits with at most one point and at least one digit, then an optional
exponent. -/
def ofText? (s : List Char) : Option Decimal :=
  let whole := s.takeWhile Char.isDigit
  let (fraction, rest) := fractionOfText (s.dropWhile Char.isDigit)
  if whole = [] ∧ fraction = [] then
    none
  else
    (exponentOfText? rest).map fun e => ⟨natOfDigits (whole ++ fraction), e - fraction.length⟩

end Decimal

namespace Double

def ofUnsignedText? (s : List Char) : Option Float :=
  if s = ['i', 'n', 'f'] then some (.ofModel (.pack (.infinity .positive)))
  else if s = ['n', 'a', 'n'] then some (.ofModel (.pack .notANumber))
  else (Decimal.ofText? s).map Decimal.toDouble

def ofText? : List Char → Option Float
  | '-' :: s => (ofUnsignedText? s).map fun x => -x
  | s => ofUnsignedText? s

end Double
end PlotFormula
