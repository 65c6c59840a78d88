import PlotFormula.Grammar.Error

/-! # The log of a reading

Reading a formula reports what it does. A computation with a log is the list of its messages, in order,
and what it came to; one that fails keeps the messages up to the failure.
-/
namespace PlotFormula

inductive Level where
  | debug
  | trace
deriving DecidableEq, Repr

def Level.name : Level → String
  | debug => "DEBUG"
  | trace => "TRACE"

inductive Event where
  | parsing (text : List Char)
  | normalized (text : List Char)
  | splitting (position : Nat) (op : Op)
  | rejectedExpression (text : List Char) (error : ParseError)
  | rejectedNumber (text : List Char) (error : ParseError)
deriving DecidableEq, Repr

namespace Event

def level : Event → Level
  | normalized _ | splitting _ _ => .trace
  | parsing _ | rejectedExpression _ _ | rejectedNumber _ _ => .debug

def message : Event → String
  | parsing text => "Parsing expression: " ++ String.ofList text
  | normalized text => "Normalized: " ++ String.ofList text
  | splitting position op =>
    "Splitting at " ++ toString position ++ " ('" ++ String.singleton op.symbol ++ "')"
  | rejectedExpression text error =>
    "Rejected expression " ++ String.ofList (Text.quote text) ++ ": " ++ error.message
  | rejectedNumber text error =>
    "Rejected number " ++ String.ofList (Text.quote text) ++ ": " ++ error.message

/-- The name of the level and the message. -/
def line (e : Event) : String × String := (e.level.name, e.message)

@[simp] theorem line_parsing (text : List Char) :
    (parsing text).line = ("DEBUG", "Parsing expression: " ++ String.ofList text) := rfl

@[simp] theorem line_normalized (text : List Char) :
    (normalized text).line = ("TRACE", "Normalized: " ++ String.ofList text) := rfl

@[simp] theorem line_splitting (position : Nat) (op : Op) :
    (splitting position op).line =
      ("TRACE", "Splitting at " ++ toString position ++ " ('" ++ String.singleton op.symbol ++ "')") := rfl

end Event

structure Logged (β : Type) where
  log : List Event
  result : β
deriving DecidableEq, Repr

instance decidableEqExcept {ε β : Type} [DecidableEq ε] [DecidableEq β] : DecidableEq (Except ε β)
  | .ok a, .ok b => decidable_of_iff (a = b) (by simp)
  | .error a, .error b => decidable_of_iff (a = b) (by simp)
  | .ok _, .error _ => isFalse (by simp)
  | .error _, .ok _ => isFalse (by simp)

/-- A computation with a log that may fail. -/
def Attempt (ε β : Type) := Logged (Except ε β)

namespace Attempt
variable {ε β γ : Type}

def note (e : Event) : Attempt ε Unit := ⟨[e], .ok ()⟩

def ofExcept (r : Except ε β) : Attempt ε β := ⟨[], r⟩

def bind (a : Attempt ε β) (f : β → Attempt ε γ) : Attempt ε γ :=
  match a.result with
  | .ok b => ⟨a.log ++ (f b).log, (f b).result⟩
  | .error e => ⟨a.log, .error e⟩

instance : Monad (Attempt ε) where
  pure b := ofExcept (.ok b)
  bind := bind

def fail (e : ε) : Attempt ε β := ofExcept (.error e)

@[simp] theorem log_note (e : Event) : (note e : Attempt ε Unit).log = [e] := rfl

@[simp] theorem result_note (e : Event) : (note e : Attempt ε Unit).result = .ok () := rfl

@[simp] theorem log_pure (b : β) : (pure b : Attempt ε β).log = [] := rfl

@[simp] theorem result_pure (b : β) : (pure b : Attempt ε β).result = .ok b := rfl

@[simp] theorem log_fail (e : ε) : (fail e : Attempt ε β).log = [] := rfl

@[simp] theorem result_fail (e : ε) : (fail e : Attempt ε β).result = .error e := rfl

@[simp] theorem log_ofExcept (r : Except ε β) : (ofExcept r).log = [] := rfl

@[simp] theorem result_ofExcept (r : Except ε β) : (ofExcept r).result = r := rfl

theorem bind_of_ok {a : Attempt ε β} {b : β} (f : β → Attempt ε γ) (h : a.result = .ok b) :
    a >>= f = ⟨a.log ++ (f b).log, (f b).result⟩ := by
  show bind a f = _
  rw [bind, h]

theorem bind_of_error {a : Attempt ε β} {e : ε} (f : β → Attempt ε γ) (h : a.result = .error e) :
    a >>= f = ⟨a.log, .error e⟩ := by
  show bind a f = _
  rw [bind, h]

theorem log_bind_of_ok {a : Attempt ε β} {b : β} (f : β → Attempt ε γ) (h : a.result = .ok b) :
    (a >>= f).log = a.log ++ (f b).log := by
  rw [bind_of_ok f h]

theorem result_bind_eq_ok {a : Attempt ε β} {f : β → Attempt ε γ} {c : γ} :
    (a >>= f).result = .ok c ↔ ∃ b, a.result = .ok b ∧ (f b).result = .ok c := by
  cases h : a.result with
  | ok b => simp [bind_of_ok f h]
  | error e => simp [bind_of_error f h]

theorem result_bind_eq_error {a : Attempt ε β} {f : β → Attempt ε γ} {e : ε} :
    (a >>= f).result = .error e ↔
      a.result = .error e ∨ ∃ b, a.result = .ok b ∧ (f b).result = .error e := by
  cases h : a.result with
  | ok b => simp [bind_of_ok f h]
  | error e => simp [bind_of_error f h]

theorem note_bind (e : Event) (f : Unit → Attempt ε β) :
    note e >>= f = ⟨e :: (f ()).log, (f ()).result⟩ := rfl

theorem log_note_bind (e : Event) (f : Unit → Attempt ε β) : (note e >>= f).log = e :: (f ()).log := rfl

theorem bind_pure_self (a : Attempt ε β) : bind a pure = a := by
  obtain ⟨log, _ | b⟩ := a
  · rfl
  · show (⟨log ++ [], .ok b⟩ : Attempt ε β) = ⟨log, .ok b⟩
    rw [List.append_nil]

/-- The log of a sequence is put together in order, whichever steps are taken as one. -/
theorem bind_assoc_steps {δ : Type} (a : Attempt ε β) (f : β → Attempt ε γ) (g : γ → Attempt ε δ) :
    bind (bind a f) g = bind a fun b => bind (f b) g := by
  obtain ⟨log, _ | b⟩ := a
  · rfl
  · show bind ⟨log ++ (f b).log, (f b).result⟩ g = ⟨log ++ (bind (f b) g).log, (bind (f b) g).result⟩
    generalize f b = c
    obtain ⟨log', _ | c⟩ := c
    · rfl
    · show (⟨log ++ log' ++ (g c).log, (g c).result⟩ : Attempt ε δ) =
        ⟨log ++ (log' ++ (g c).log), (g c).result⟩
      rw [List.append_assoc]

instance : LawfulMonad (Attempt ε) :=
  LawfulMonad.mk' (Attempt ε) bind_pure_self (fun _ _ => rfl) bind_assoc_steps

theorem map_ofExcept (f : β → γ) (r : Except ε β) : f <$> ofExcept r = ofExcept (r.map f) := by
  cases r <;> rfl

@[simp] theorem log_map (f : β → γ) (a : Attempt ε β) : (f <$> a).log = a.log := by
  obtain ⟨log, _ | b⟩ := a
  · rfl
  · exact List.append_nil log

@[simp] theorem result_map (f : β → γ) (a : Attempt ε β) : (f <$> a).result = a.result.map f := by
  obtain ⟨log, _ | b⟩ := a <;> rfl

end Attempt
end PlotFormula
