import PlotFormula.Scalar

/-! # Doubles

`Float` is the binary64 format, and core's model of it makes sums, products, quotients, roots and
comparisons part of the logic. The integer parts are computed here from the significand and the
exponent, so that they are part of it too; the transcendental functions stay uninterpreted.
-/
namespace PlotFormula.Double

/-- The greatest integer that is not above `x`. A number without fractional bits, a zero of either
sign, an infinity and a NaN are their own floor. -/
def floor (x : Float) : Float :=
  match x.toModel.unpack with
  | .finite s m (.negSucc k) _ => .ofModel (.ofInt (s.apply m / Nat.pow 2 (k + 1)))
  | _ => x

def ceil (x : Float) : Float := -floor (-x)

/-- The greater of two doubles, the first of them where they are equal. A NaN gives way to the other one. -/
def greater (x y : Float) : Float := if x.isNaN || x.lt y then y else x

def lesser (x y : Float) : Float := if x.isNaN || y.lt x then y else x

instance : Scalar Float where
  ofNat n := .ofModel (.ofNat n)
  half := 0.5
  pi := 3.141592653589793
  euler := 2.718281828459045
  nan := .ofModel (.pack .notANumber)
  isNaN := Float.isNaN
  lt := Float.lt
  le := Float.le
  max := greater
  min := lesser
  floor := floor
  ceil := ceil
  abs := Float.abs
  sqrt := Float.sqrt
  pow := Float.pow
  exp := Float.exp
  log := Float.log
  sin := Float.sin
  cos := Float.cos
  tan := Float.tan
  asin := Float.asin
  acos := Float.acos
  atan := Float.atan

end PlotFormula.Double
