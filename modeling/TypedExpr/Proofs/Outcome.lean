import TypedExpr.EvalError
import TypedExpr.Ty.Name

/-! # Outcomes

An outcome in two steps has a value only if both steps have one, and the error of the first step
that fails. An outcome is safe if it is a value of which something holds, or an error that
well-typed expressions can end with: one that tells what a value was, and not what the types were.
A record can also refuse a text that stands for its characters, where there are such texts. An
outcome yields what holds of its value, if it has one, whatever its error may be.
-/

namespace TypedExpr

theorem Outcome.bind_ok {α β : Type} {x : Outcome α} {f : α → Outcome β} {b : β} :
    (x >>= f) = .ok b ↔ ∃ a, x = .ok a ∧ f a = .ok b := by
  cases x with
  | error e => simp [bind, Except.bind]
  | ok a => simp [bind, Except.bind]

theorem Outcome.bind_error {α β : Type} {x : Outcome α} {f : α → Outcome β} {e : EvalError} :
    (x >>= f) = .error e ↔ x = .error e ∨ ∃ a, x = .ok a ∧ f a = .error e := by
  cases x with
  | error e => simp [bind, Except.bind]
  | ok a => simp [bind, Except.bind]

/-- The errors that the values of a well-typed expression can lead to. -/
inductive EvalError.Permitted (texts : Prop) : EvalError → Prop where
  | nullReference : Permitted texts .nullReference
  | noValue : Permitted texts .noValue
  | overflow : Permitted texts .overflow
  | divideByZero : Permitted texts .divideByZero
  | indexOutOfRange : Permitted texts .indexOutOfRange
  | emptySequence : Permitted texts .emptySequence
  | invalidFormat (text : String) : Permitted texts (.invalidFormat text)
  | invalidArgument (reason : String) : Permitted texts (.invalidArgument reason)
  | invalidCast (source target : String) : Permitted texts (.invalidCast source target)
  | spelled (name : String) (h : texts) : Permitted texts
      (.record (.typeMismatch name (Ty.sequence .char).toText Ty.string.toText))

namespace Outcome

variable {α β : Type} {texts : Prop} {P : α → Prop} {Q : β → Prop}

/-- A value of which `P` holds, or a permitted error. -/
inductive Safe (texts : Prop) (P : α → Prop) : Outcome α → Prop where
  | ok {a} (h : P a) : Safe texts P (.ok a)
  | error {e} (h : e.Permitted texts) : Safe texts P (.error e)

namespace Safe

theorem bind {x : Outcome α} {f : α → Outcome β} (hx : x.Safe texts P)
    (hf : ∀ a, P a → (f a).Safe texts Q) : (x >>= f).Safe texts Q := by
  cases hx with
  | ok ha => exact hf _ ha
  | error he => exact .error he

theorem imp {P' : α → Prop} {x : Outcome α} (hx : x.Safe texts P) (h : ∀ a, P a → P' a) :
    x.Safe texts P' := by
  cases hx with
  | ok ha => exact .ok (h _ ha)
  | error he => exact .error he

theorem ofOption {e : EvalError} {o : Option α} (he : e.Permitted texts)
    (h : ∀ a, o = some a → P a) : (Outcome.ofOption e o).Safe texts P := by
  cases o with
  | none => exact .error he
  | some a => exact .ok (h a rfl)

theorem ofMap {γ : Type} {e : EvalError} {o : Option γ} {f : γ → α} (he : e.Permitted texts)
    (h : ∀ c, P (f c)) : (Outcome.ofOption e (o.map f)).Safe texts P := by
  cases o with
  | none => exact .error he
  | some c => exact .ok (h c)

end Safe

/-- The value, if there is one, satisfies `P`. -/
def Yields (P : α → Prop) (x : Outcome α) : Prop := ∀ a, x = .ok a → P a

namespace Yields

variable {x : Outcome α}

theorem ok {a : α} (h : P a) : Yields P (.ok a) := by
  rintro _ ⟨⟩
  exact h

theorem error {e : EvalError} : Yields P (.error e) := nofun

theorem bind {f : α → Outcome β} (hx : x.Yields P) (hf : ∀ a, P a → (f a).Yields Q) :
    (x >>= f).Yields Q := by
  intro b h
  obtain ⟨a, ha, hb⟩ := bind_ok.mp h
  exact hf a (hx a ha) b hb

/-- Nothing needs to be known of the first of two steps. -/
theorem andThen {f : α → Outcome β} (hf : ∀ a, (f a).Yields Q) : (x >>= f).Yields Q :=
  bind (P := fun _ => True) (fun _ _ => trivial) fun a _ => hf a

theorem imp {P' : α → Prop} (hx : x.Yields P) (h : ∀ a, P a → P' a) : x.Yields P' :=
  fun a ha => h a (hx a ha)

/-- A second step can know that the first one has led to its value. -/
theorem known (hx : x.Yields P) : x.Yields fun a => x = .ok a ∧ P a := fun a ha => ⟨ha, hx a ha⟩

theorem ofOption {e : EvalError} {o : Option α} (h : ∀ a, o = some a → P a) :
    (Outcome.ofOption e o).Yields P := by
  cases o with
  | none => exact error
  | some a => exact ok (h a rfl)

theorem ofMap {γ : Type} {e : EvalError} {o : Option γ} {f : γ → α} (h : ∀ c, P (f c)) :
    (Outcome.ofOption e (o.map f)).Yields P := by
  cases o with
  | none => exact error
  | some c => exact ok (h c)

theorem ite {c : Prop} [Decidable c] {y : Outcome α} (hx : c → x.Yields P)
    (hy : ¬ c → y.Yields P) : (if c then x else y).Yields P := by
  split
  · exact hx ‹c›
  · exact hy ‹¬ c›

end Yields
end Outcome
end TypedExpr
