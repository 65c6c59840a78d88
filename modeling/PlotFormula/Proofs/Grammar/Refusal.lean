import PlotFormula.Proofs.Grammar.Reading

/-! # What a refusal names

A text is refused at one of its parts, and nothing is read after that part. The refusal carries the normal
text of the part, which therefore is the last text that was reported. Read alone it is its own normal text,
so it is refused again and for the same reason.
-/
namespace PlotFormula

/-- The normal text of the part at fault. A call with a wrong number of arguments is refused after its
arguments have been read, and names its function instead. -/
def ParseError.fragment? : ParseError → Option (List Char)
  | empty => some []
  | malformedCall text => some text
  | unrecognizedToken text => some text
  | arityMismatch _ _ => none

namespace Grammar
variable {vars s : List Char}

/-- A refusal names the text that was reported last, and that text alone is refused for the same reason. -/
def NamesFault (vars : List Char) {β : Type} (a : Attempt ParseError β) : Prop :=
  ∀ e t, a.result = .error e → e.fragment? = some t →
    a.log.getLast? = some (.normalized t) ∧ (tryParse vars t).result = .error e

namespace NamesFault
variable {β γ : Type}

theorem of_ok {a : Attempt ParseError β} {b : β} (h : a.result = .ok b) : NamesFault vars a := by
  intro e t he
  rw [h] at he
  simp at he

theorem of_fail {e : ParseError} {t : List Char} (he : e.fragment? = some t)
    (hagain : (tryParse vars t).result = .error e) :
    NamesFault vars (Attempt.note (.normalized t) >>= fun _ => (Attempt.fail e : Attempt ParseError β)) := by
  intro e' t' he' ht
  obtain rfl := Except.error.inj he'
  obtain rfl := Option.some.inj (he.symm.trans ht)
  exact ⟨rfl, hagain⟩

theorem bind {a : Attempt ParseError β} {f : β → Attempt ParseError γ} (ha : NamesFault vars a)
    (hf : ∀ b, NamesFault vars (f b)) : NamesFault vars (a >>= f) := by
  intro e t he ht
  rcases Attempt.result_bind_eq_error.mp he with hfirst | ⟨b, hb, hsecond⟩
  · rw [Attempt.bind_of_error f hfirst]
    exact ha e t hfirst ht
  · obtain ⟨hlast, hagain⟩ := hf b e t hsecond ht
    rw [Attempt.bind_of_ok f hb]
    refine ⟨?_, hagain⟩
    show (a.log ++ (f b).log).getLast? = some (.normalized t)
    rw [List.getLast?_append, hlast]
    rfl

theorem call? (f : Func) (as : List (Expr Float)) : NamesFault vars (Attempt.ofExcept (Expr.call? f as)) := by
  intro e t he ht
  rw [Attempt.result_ofExcept, Expr.call?] at he
  split at he
  · simp at he
  · obtain rfl := Except.error.inj he
    simp [ParseError.fragment?] at ht

theorem parseParts {args : List (List Char)} (h : ∀ p ∈ args, NamesFault vars (parsePart vars p)) :
    NamesFault vars (parseParts vars args) := by
  induction args with
  | nil =>
    rw [Grammar.parseParts]
    exact of_ok rfl
  | cons p args ih =>
    obtain ⟨hp, hargs⟩ := List.forall_mem_cons.mp h
    rw [Grammar.parseParts]
    exact hp.bind fun a => (ih hargs).bind fun as => of_ok rfl

end NamesFault

theorem Form.eq_nil_of_ofText_eq_blank (h : ofText vars s = blank) : s = [] := by
  revert h
  refine ofText_cases vars s ?blank ?operation ?negation ?call ?brokenCall ?slot ?number ?unknown
  case blank => exact fun h _ => h
  all_goals simp

theorem namesFault_parsePart (hvars : Shielded vars) (hs : compact s = s) :
    NamesFault vars (parsePart vars s) := by
  induction s using induction_parts vars with
  | step s ih =>
    have hparts : ∀ p ∈ (Form.ofText vars (normal vars s)).parts, NamesFault vars (parsePart vars p) :=
      fun p hp => ih p hp (compact_of_mem_parts hs hp)
    have hagain := result_tryParse_normal hvars hs
    have hread := parsePart_eq vars s
    -- A text is refused by itself, and then read alone it is refused again, or at one of its parts.
    generalize hform : Form.ofText vars (normal vars s) = form at hread hparts
    rw [hread] at hagain ⊢
    cases form with
    | blank => exact .of_fail (by rw [Form.eq_nil_of_ofText_eq_blank hform]; rfl) hagain
    | brokenCall => exact .of_fail rfl hagain
    | unknown => exact .of_fail rfl hagain
    | negation t =>
      have ht := Form.forall_parts_negation.mp hparts
      exact (NamesFault.of_ok rfl).bind fun _ => ht.bind fun a => .of_ok rfl
    | operation r =>
      obtain ⟨hleft, hright⟩ := Form.forall_parts_operation.mp hparts
      exact (NamesFault.of_ok rfl).bind fun _ => (NamesFault.of_ok rfl).bind fun _ =>
        hleft.bind fun a => hright.bind fun b => .of_ok rfl
    | call f args =>
      exact (NamesFault.of_ok rfl).bind fun _ => (NamesFault.parseParts hparts).bind fun as => .call? f as
    | slot i => exact .of_ok rfl
    | number x => exact .of_ok rfl

/-- The last message of a refused text reports the fragment that the refusal names, and that fragment is refused
with the same error. The empty fragment is named by `ParseError.empty`. -/
theorem tryParse_refusal (hvars : IsPlain vars) {text t : List Char} {e : ParseError}
    (h : (tryParse vars text).result = .error e) (ht : e.fragment? = some t) :
    (tryParse vars text).log.getLast? = some (.normalized t) ∧
    ((tryParse vars text).log.map Event.line).getLast? = some ("TRACE", "Normalized: " ++ String.ofList t) ∧
    (tryParse vars t).result = .error e := by
  have hpart := namesFault_parsePart hvars.shielded (compact_compact text)
  have hnote : NamesFault vars (Attempt.note (.parsing text)) := .of_ok rfl
  obtain ⟨hlast, hagain⟩ := hnote.bind (fun _ => hpart) e t h ht
  have hline : ((tryParse vars text).log.map Event.line).getLast? =
      some ("TRACE", "Normalized: " ++ String.ofList t) := by
    rw [List.getLast?_map, show (tryParse vars text).log.getLast? = _ from hlast, Option.map_some,
      Event.line_normalized]
  exact ⟨hlast, hline, hagain⟩

theorem tryParse_refusal_sin :
    (tryParse ['x'] "X - Sin(2(X) + 1)y".toList).result = .error (.malformedCall "sin(2*(x)+1)y".toList) ∧
      (tryParse ['x'] "X - Sin(2(X) + 1)y".toList).log.getLast? =
        some (.normalized "sin(2*(x)+1)y".toList) ∧
      ((tryParse ['x'] "X - Sin(2(X) + 1)y".toList).log.map Event.line).getLast? =
        some ("TRACE", "Normalized: " ++ String.ofList "sin(2*(x)+1)y".toList) ∧
      (tryParse ['x'] "sin(2*(x)+1)y".toList).result = .error (.malformedCall "sin(2*(x)+1)y".toList) := by
  have herror : (tryParse ['x'] "X - Sin(2(X) + 1)y".toList).result =
      .error (.malformedCall "sin(2*(x)+1)y".toList) := by decide +kernel
  exact ⟨herror, tryParse_refusal (by decide) herror rfl⟩

end Grammar
end PlotFormula
