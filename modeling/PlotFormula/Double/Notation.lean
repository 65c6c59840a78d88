import PlotFormula.Double.Shortest

/-! # Notations for doubles

Two ways to place a point among digits: positional, which never uses an exponent, and scientific, with
one digit before the point. Infinities are `inf` and `-inf`, every NaN is `NaN`, and a zero keeps its
sign.
-/
namespace PlotFormula.Double
open Float.Model.UnpackedFloat (Sign)

def signed (s : Sign) (t : List Char) : List Char :=
  match s with
  | .negative => '-' :: t
  | .positive => t

def intText : Int → List Char
  | .ofNat n => Nat.toDigits 10 n
  | .negSucc n => '-' :: Nat.toDigits 10 (n + 1)

namespace Digits

def positional (d : Digits) : List Char :=
  if d.point ≤ 0 then
    ['0', '.'] ++ List.replicate (-d.point).toNat '0' ++ d.digits
  else if d.digits.length ≤ d.point.toNat then
    d.digits ++ List.replicate (d.point.toNat - d.digits.length) '0'
  else
    d.digits.take d.point.toNat ++ '.' :: d.digits.drop d.point.toNat

def scientific (d : Digits) : List Char :=
  let mantissa := match d.digits with
    | c :: rest@(_ :: _) => c :: '.' :: rest
    | ds => ds
  mantissa ++ 'e' :: intText (d.point - 1)

end Digits

/-- The text of a double in a notation that says how zero and the other finite values are written. -/
def textWith (zero : List Char) (finite : Nat → Int → List Char) (x : Float) : List Char :=
  match x.toModel.unpack with
  | .notANumber => ['N', 'a', 'N']
  | .infinity s => signed s ['i', 'n', 'f']
  | .zero s => signed s zero
  | .finite s m q _ => signed s (finite m q)

def positional (x : Float) : List Char :=
  textWith ['0'] (fun m q => (shortestDigits x.abs m q).positional) x

def scientific (x : Float) : List Char :=
  textWith ['0', 'e', '0'] (fun m q => (shortestDigits x.abs m q).scientific) x

/-- Exactly `n` significant digits of the exact value, in scientific notation. -/
def scientificTo (n : Nat) (x : Float) : List Char :=
  textWith (Digits.scientific ⟨List.replicate n '0', 1⟩) (fun m q => (roundedDigits n m q).scientific) x

end PlotFormula.Double
