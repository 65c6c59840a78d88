import PlotFormula.Catalog.Func
import PlotFormula.Double.Notation
import PlotFormula.Op
import PlotFormula.Text.Quoted

/-! # Why a text is refused -/
namespace PlotFormula

/-- Why a text is not a formula. The texts are normal texts of the part at fault. -/
inductive ParseError where
  | empty
  | arityMismatch (f : Func) (found : Nat)
  | malformedCall (text : List Char)
  | unrecognizedToken (text : List Char)
deriving DecidableEq, Repr

/-- Why a text is not a number. The texts are given as they were typed. -/
inductive NumberError where
  | invalid (text : List Char)
  | nonFinite (text : List Char) (value : Float)

def ParseError.message : ParseError → String
  | empty => "empty expression"
  | arityMismatch f found =>
    String.ofList f.name ++ " expects " ++ f.arity.text ++ " argument(s), found " ++ toString found
  | malformedCall text => "malformed call: " ++ String.ofList text
  | unrecognizedToken text => "unrecognized token: " ++ String.ofList text

def NumberError.message : NumberError → String
  | invalid text => "invalid number: " ++ String.ofList (Text.quote text)
  | nonFinite text value =>
    String.ofList (Text.quote text) ++ " evaluates to " ++ String.ofList (Double.positional value) ++
      ", which is not finite"

def Op.ofChar (c : Char) : Except ParseError Op :=
  match ofSymbol? c with
  | some op => .ok op
  | none => .error (.unrecognizedToken [c])

end PlotFormula
