import PlotFormula.Double.Decimal

/-! # Shortest digits

The fewest digits that read back as a given double, and a given number of digits of its exact value.
A finite double is `m * 2 ^ q`. Both searches look at the two neighbours of that value on the grid of
the multiples of a power of ten, in exact integer arithmetic.
-/
namespace PlotFormula.Double

/-- The positive number `0.d₁d₂… * 10 ^ point`. -/
structure Digits where
  digits : List Char
  point : Int
deriving DecidableEq, Repr

def Digits.ofDecimal (d : Decimal) : Digits :=
  let ds := Nat.toDigits 10 d.coefficient
  { digits := (ds.reverse.dropWhile (· = '0')).reverse
    point := ds.length + d.exponent }

structure Ratio where
  num : Nat
  den : Nat

namespace Ratio

def ofBinary (m : Nat) (q : Int) : Ratio :=
  ⟨m * Nat.pow 2 q.toNat, Nat.pow 2 (-q).toNat⟩

def inUnits (r : Ratio) (s : Int) : Ratio :=
  ⟨r.num * Nat.pow 10 (-s).toNat, r.den * Nat.pow 10 s.toNat⟩

def floor (r : Ratio) : Nat := r.num / r.den

def nearFloor (r : Ratio) : Bool := 2 * (r.num % r.den) < r.den

def roundToEven (r : Ratio) : Nat :=
  let twice := 2 * (r.num % r.den)
  if twice < r.den ∨ twice = r.den ∧ r.floor % 2 = 0 then r.floor else r.floor + 1

/-- The `k` with `10 ^ (k - 1) ≤ r < 10 ^ k`. -/
def magnitude (r : Ratio) : Int :=
  if r.den ≤ r.num then
    (Nat.toDigits 10 r.floor).length
  else
    1 - (Nat.toDigits 10 ((r.den - 1) / r.num)).length

end Ratio

/-- The neighbour of a value with `n` digits that reads back as `x`. If both do, it is the nearer one,
and the upper one where they are equally near. -/
def neighbour? (x : Float) (r : Ratio) (n : Nat) : Option Decimal :=
  let s := r.magnitude - n
  let scaled := r.inUnits s
  let lower : Decimal := ⟨scaled.floor, s⟩
  let upper : Decimal := ⟨scaled.floor + 1, s⟩
  match decide (lower.toDouble = x), decide (upper.toDouble = x) with
  | true, true => some (if scaled.nearFloor then lower else upper)
  | true, false => some lower
  | false, true => some upper
  | false, false => none

def exactDecimal (m : Nat) (q : Int) : Decimal :=
  if 0 ≤ q then ⟨m * Nat.pow 2 q.toNat, 0⟩ else ⟨m * Nat.pow 5 (-q).toNat, q⟩

/-- The decimal with the fewest digits that reads back as the positive double `x = m * 2 ^ q`. Seventeen
digits are enough for every double. -/
def shortestDecimal (x : Float) (m : Nat) (q : Int) : Decimal :=
  ((List.range 17).findSome? fun n => neighbour? x (.ofBinary m q) (n + 1)).getD (exactDecimal m q)

def shortestDigits (x : Float) (m : Nat) (q : Int) : Digits :=
  .ofDecimal (shortestDecimal x m q)

def roundedDigits (n m : Nat) (q : Int) : Digits :=
  let r := Ratio.ofBinary m q
  let s := r.magnitude - n
  let ds := Nat.toDigits 10 (r.inUnits s).roundToEven
  { digits := ds.take n, point := ds.length + s }

end PlotFormula.Double
