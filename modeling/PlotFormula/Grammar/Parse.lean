import PlotFormula.Double.Basic
import PlotFormula.Expr.Eval
import PlotFormula.Grammar.Form
import PlotFormula.Grammar.Log

/-! # Reading formulas

A text is brought into its normal text, and the parts that the form of that text names are read in the
same way. A formula is read over a table of variables, one character each; the place of a variable in
the table is its slot.
-/
namespace PlotFormula

def Expr.call? {α : Type} (f : Func) (args : List (Expr α)) : Except ParseError (Expr α) :=
  if f.arity.accepts args.length then .ok (.call f args)
  else .error (.arityMismatch f args.length)

namespace Grammar

mutual

def parsePart (vars s : List Char) : Attempt ParseError (Expr Float) := do
  let text := normal vars s
  Attempt.note (.normalized text)
  match _h : Form.ofText vars text with
  | .blank => Attempt.fail .empty
  | .negation inner =>
    let a ← parsePart vars inner
    return .neg a
  | .operation r =>
    Attempt.note (.splitting r.position r.op)
    let a ← parsePart vars r.left
    let b ← parsePart vars r.right
    return .binary r.op a b
  | .call f args =>
    let as ← parseParts vars args
    Attempt.ofExcept (Expr.call? f as)
  | .brokenCall => Attempt.fail (.malformedCall text)
  | .slot i => return .var i
  | .number x => return .const x
  | .unknown => Attempt.fail (.unrecognizedToken text)
termination_by weight s
decreasing_by all_goals
  have h₁ := weight_normal vars s
  have h₂ := Form.weight_ofText vars (normal vars s)
  rw [show Form.ofText vars (normal vars s) = _ from _h] at h₂
  simp only [Form.weight] at h₂
  omega

def parseParts (vars : List Char) : List (List Char) → Attempt ParseError (List (Expr Float))
  | [] => return []
  | s :: rest => do
    let a ← parsePart vars s
    let as ← parseParts vars rest
    return a :: as
termination_by args => weights args
decreasing_by all_goals
  rw [weights_cons]
  omega

end

theorem parsePart_eq (vars s : List Char) :
    parsePart vars s = (do
      Attempt.note (.normalized (normal vars s))
      match Form.ofText vars (normal vars s) with
      | .blank => Attempt.fail .empty
      | .negation inner =>
        let a ← parsePart vars inner
        return .neg a
      | .operation r =>
        Attempt.note (.splitting r.position r.op)
        let a ← parsePart vars r.left
        let b ← parsePart vars r.right
        return .binary r.op a b
      | .call f args =>
        let as ← parseParts vars args
        Attempt.ofExcept (Expr.call? f as)
      | .brokenCall => Attempt.fail (.malformedCall (normal vars s))
      | .slot i => return .var i
      | .number x => return .const x
      | .unknown => Attempt.fail (.unrecognizedToken (normal vars s))) := by
  rw [parsePart]
  congr 1
  funext _
  split <;> simp_all

end Grammar

def tryParse (vars text : List Char) : Attempt ParseError (Expr Float) := do
  Attempt.note (.parsing text)
  Grammar.parsePart vars (Grammar.compact text)

/-- Reads a formula. A text that is none becomes the invalid formula as a whole, and never a formula with
gaps. -/
def parse (vars text : List Char) : Logged (Expr Float) :=
  let attempt := tryParse vars text
  match attempt.result with
  | .ok a => ⟨attempt.log, a⟩
  | .error e => ⟨attempt.log ++ [.rejectedExpression text e], .invalid⟩

/-- Reads a number, such as a bound or a resolution: a formula without variables whose value is finite. -/
def readNumber (text : List Char) : Attempt NumberError Float :=
  let attempt := tryParse [] text
  match attempt.result with
  | .ok a =>
    let value := a.eval []
    ⟨attempt.log, if value.isFinite then .ok value else .error (.nonFinite text value)⟩
  | .error e => ⟨attempt.log ++ [.rejectedNumber text e], .error (.invalid text)⟩

end PlotFormula
