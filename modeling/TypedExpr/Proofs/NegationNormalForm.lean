import TypedExpr.Eval
import TypedExpr.Proofs.Outcome

/-! # Negations pushed inward

And, or and not make trees of truth values, where null is unknown and the right side of and and or
does not count when the left side is decisive. A negation can be pushed to the leaves: and becomes
or, or becomes and, and two negations are none. The sides stay where they are, so that the same
leaves are evaluated, and a leaf that fails does so before and after.
-/

namespace TypedExpr

/-- A truth value, perhaps unknown, or an error. -/
inductive Outcome.IsTruth : Outcome Value → Prop where
  | boolean (b : Bool) : IsTruth (.ok (.boolean b))
  | null : IsTruth (.ok .null)
  | error (e : EvalError) : IsTruth (.error e)

/-- Trees of and, or and not over expressions, with conversions to the type with null. Or is decided
by a left side that is true, and and by one that is false. -/
inductive Formula where
  | atom (e : Expr)
  | not (operand : Formula)
  | join (decisive : Bool) (left right : Formula) (ty : Ty)
  | lifted (checked : Bool) (operand : Formula)

namespace Formula

open Outcome Expr

def toExpr : Formula → Expr
  | atom e => e
  | not f => .unary .not f.toExpr
  | join decisive l r t => .binary (if decisive then .or else .and) l.toExpr r.toExpr t
  | lifted checked f => .convert checked f.toExpr (.nullable .boolean)

/-- The expressions at the leaves from left to right. -/
def atoms : Formula → List Expr
  | atom e => [e]
  | not f | lifted _ f => f.atoms
  | join _ l r _ => l.atoms ++ r.atoms

/-- The formula, or its negation, with negations at the leaves only. -/
def normal (negated : Bool) : Formula → Formula
  | atom e => if negated then not (atom e) else atom e
  | not f => f.normal !negated
  | join decisive l r t => join (decisive ^^ negated) (l.normal negated) (r.normal negated) t
  | lifted checked f => lifted checked (f.normal negated)

/-- Only leaves are negated. -/
def IsNormal : Formula → Prop
  | atom _ | not (atom _) => True
  | not _ => False
  | join _ l r _ => l.IsNormal ∧ r.IsNormal
  | lifted _ f => f.IsNormal

section

variable {f : Formula} {negated : Bool}

theorem isNormal_normal : (f.normal negated).IsNormal := by
  induction f generalizing negated with
  | atom e => cases negated <;> exact trivial
  | not f ih => exact ih
  | join _ l r _ hl hr => exact ⟨hl, hr⟩
  | lifted _ f ih => exact ih

theorem atoms_normal : (f.normal negated).atoms = f.atoms := by
  induction f generalizing negated with
  | atom e => cases negated <;> rfl
  | not f ih => exact ih
  | join _ l r _ hl hr => rw [normal, atoms, atoms, hl, hr]
  | lifted _ f ih => exact ih

theorem ty_normal : (f.normal negated).toExpr.ty = f.toExpr.ty := by
  induction f generalizing negated with
  | atom e => cases negated <;> rfl
  | not f ih => exact ih
  | join | lifted => rfl

end

/-! ## The value -/

def negatedIf (negated : Bool) (o : Outcome Value) : Outcome Value :=
  if negated then o >>= UnaryOp.not.apply else o

@[simp] theorem negatedIf_boolean (negated b : Bool) :
    negatedIf negated (.ok (.boolean b)) = .ok (.boolean (b ^^ negated)) := by
  cases negated with
  | false => rw [Bool.xor_false, negatedIf, if_neg Bool.false_ne_true]
  | true => rw [Bool.xor_true, negatedIf, if_pos rfl]; rfl

@[simp] theorem negatedIf_null (negated : Bool) : negatedIf negated (.ok .null) = .ok .null := by
  cases negated <;> rfl

@[simp] theorem negatedIf_error (negated : Bool) (e : EvalError) :
    negatedIf negated (.error e) = .error e := by
  cases negated <;> rfl

theorem negatedIf_eq_error {o : Outcome Value} {negated : Bool} {e : EvalError} (h : o.IsTruth) :
    negatedIf negated o = .error e ↔ o = .error e := by
  cases h <;> simp

theorem negatedIf_isTruth {o : Outcome Value} (negated : Bool) (h : o.IsTruth) :
    (negatedIf negated o).IsTruth := by
  cases h with
  | boolean b => simpa using IsTruth.boolean (b ^^ negated)
  | null => simpa using IsTruth.null
  | error e => simpa using IsTruth.error e

/-- A negation of a negation is none. -/
theorem negatedIf_not {o : Outcome Value} (negated : Bool) (h : o.IsTruth) :
    negatedIf negated (o >>= UnaryOp.not.apply) = negatedIf (!negated) o := by
  cases negated with
  | false => rfl
  | true =>
      cases h with
      | boolean b => cases b <;> rfl
      | null | error => rfl

/-- De Morgan's laws, where the sides can be unknown or fail. -/
theorem negatedIf_logical {l r : Outcome Value} (decisive negated : Bool) (hl : l.IsTruth)
    (hr : r.IsTruth) : negatedIf negated (l >>= fun v => v.logical decisive r) =
      negatedIf negated l >>= fun v => v.logical (decisive ^^ negated) (negatedIf negated r) := by
  cases hl with
  | error => cases negated <;> rfl
  | null =>
      cases hr with
      | boolean b => cases negated <;> cases decisive <;> cases b <;> rfl
      | null | error => cases negated <;> cases decisive <;> rfl
  | boolean a =>
      cases hr with
      | boolean b => cases negated <;> cases decisive <;> cases a <;> cases b <;> rfl
      | null | error => cases negated <;> cases decisive <;> cases a <;> rfl

theorem logical_isTruth {l r : Outcome Value} (decisive : Bool) (hl : l.IsTruth)
    (hr : r.IsTruth) : (l >>= fun v => v.logical decisive r).IsTruth := by
  cases hl with
  | error e => exact .error e
  | null =>
      cases hr with
      | boolean b => cases decisive <;> cases b <;> constructor
      | null | error => cases decisive <;> constructor
  | boolean a =>
      cases hr with
      | boolean b => cases decisive <;> cases a <;> cases b <;> constructor
      | null | error => cases decisive <;> cases a <;> constructor

/-- A truth value stays what it is in the type with null. -/
theorem convert_lifted {o : Outcome Value} (checked : Bool) (h : o.IsTruth) :
    (o >>= fun v => v.convert checked (.nullable .boolean)) = o := by
  cases h <;> rfl

variable {host : Host} {scope : Scope} {f : Formula}

theorem eval_join (decisive : Bool) (l r : Formula) (t : Ty) :
    eval host (join decisive l r t).toExpr scope =
      eval host l.toExpr scope >>= fun v => v.logical decisive (eval host r.toExpr scope) := by
  cases decisive <;> rfl

theorem isTruth_of_atoms (h : ∀ e ∈ f.atoms, (eval host e scope).IsTruth) :
    (eval host f.toExpr scope).IsTruth := by
  induction f with
  | atom e => exact h e List.mem_cons_self
  | not f ih => exact negatedIf_isTruth true (ih h)
  | join decisive l r t hl hr =>
      obtain ⟨left, right⟩ := List.forall_mem_append.mp h
      rw [eval_join]
      exact logical_isTruth decisive (hl left) (hr right)
  | lifted checked f ih =>
      rw [toExpr, eval, convert_lifted checked (ih h)]
      exact ih h

theorem eval_normal (negated : Bool) (h : ∀ e ∈ f.atoms, (eval host e scope).IsTruth) :
    eval host (f.normal negated).toExpr scope = negatedIf negated (eval host f.toExpr scope) := by
  induction f generalizing negated with
  | atom e => cases negated <;> rfl
  | not f ih =>
      have truth := isTruth_of_atoms (f := f) h
      rw [normal, ih (!negated) h, toExpr, eval]
      exact (negatedIf_not negated truth).symm
  | join decisive l r t hl hr =>
      obtain ⟨left, right⟩ := List.forall_mem_append.mp h
      rw [normal, eval_join, eval_join, hl negated left, hr negated right,
        negatedIf_logical decisive negated (isTruth_of_atoms left) (isTruth_of_atoms right)]
  | lifted checked f ih =>
      have truth := isTruth_of_atoms (f := f) h
      rw [normal, toExpr, toExpr, eval, eval, ih negated h, convert_lifted checked truth]
      exact convert_lifted checked (negatedIf_isTruth negated truth)

/-! ## The leaf that fails -/

/-- The left side has a value that leaves the answer to the right one. -/
def Undecided (decisive : Bool) (left : Outcome Value) : Prop :=
  left = .ok .null ∨ left = .ok (.boolean !decisive)

theorem undecided_negatedIf {o : Outcome Value} (decisive negated : Bool) (h : o.IsTruth) :
    Undecided (decisive ^^ negated) (negatedIf negated o) ↔ Undecided decisive o := by
  cases h with
  | boolean b =>
      rw [negatedIf_boolean]
      cases decisive <;> cases negated <;> cases b <;> simp [Undecided]
  | null => simp [Undecided]
  | error e => simp [Undecided]

/-- Two sides fail with the error of the left one, or with that of the right one if the left one
leaves the answer to it. -/
theorem logical_error {l r : Outcome Value} {decisive : Bool} {e : EvalError} (hl : l.IsTruth)
    (hr : r.IsTruth) : (l >>= fun v => v.logical decisive r) = .error e ↔
      l = .error e ∨ Undecided decisive l ∧ r = .error e := by
  cases hl with
  | error => simp [Undecided, bind, Except.bind]
  | null =>
      cases hr <;> simp [Undecided, bind, Except.bind, Value.logical, Value.truth?, pure, Except.pure]
  | boolean a =>
      cases hr <;> cases decisive <;> cases a <;>
        simp [Undecided, bind, Except.bind, Value.logical, Value.truth?, pure, Except.pure]

/-- The leaf with this number, counted from the left, is evaluated and fails. A right side is
evaluated if the left one has a value that is not decisive. -/
inductive FailsAt (host : Host) (scope : Scope) : Formula → Nat → EvalError → Prop where
  | atom {expr e} (h : eval host expr scope = .error e) : FailsAt host scope (.atom expr) 0 e
  | not {operand i e} (h : FailsAt host scope operand i e) : FailsAt host scope (.not operand) i e
  | left {decisive l r t i e} (h : FailsAt host scope l i e) :
      FailsAt host scope (join decisive l r t) i e
  | right {decisive l r t i e} (undecided : Undecided decisive (eval host l.toExpr scope))
      (h : FailsAt host scope r i e) :
      FailsAt host scope (join decisive l r t) (l.atoms.length + i) e
  | lifted {checked operand i e} (h : FailsAt host scope operand i e) :
      FailsAt host scope (.lifted checked operand) i e

namespace FailsAt

variable {i j : Nat} {e e' : EvalError}

theorem atom_fails (h : FailsAt host scope f i e) :
    ∃ expr, f.atoms[i]? = some expr ∧ eval host expr scope = .error e := by
  induction h with
  | atom h => exact ⟨_, rfl, h⟩
  | not _ ih | lifted _ ih => exact ih
  | left _ ih =>
      obtain ⟨expr, found, fails⟩ := ih
      refine ⟨expr, ?_, fails⟩
      rw [atoms, List.getElem?_append_left (List.getElem?_eq_some_iff.mp found).1]
      exact found
  | right _ _ ih =>
      obtain ⟨expr, found, fails⟩ := ih
      refine ⟨expr, ?_, fails⟩
      rw [atoms, List.getElem?_append_right (Nat.le_add_right _ _), Nat.add_sub_cancel_left]
      exact found

/-- The whole fails with the error of the leaf. -/
theorem eval_eq (h : FailsAt host scope f i e) : eval host f.toExpr scope = .error e := by
  induction h with
  | atom h => exact h
  | not _ ih | lifted _ ih =>
      rw [toExpr, eval, ih]
      rfl
  | left _ ih =>
      rw [eval_join, ih]
      rfl
  | @right decisive _ _ _ _ _ undecided _ ih =>
      rw [eval_join, ih]
      rcases undecided with left | left
      · rw [left]
        rfl
      · rw [left]
        cases decisive <;> rfl

theorem not_undecided (h : FailsAt host scope f i e) {decisive : Bool} :
    ¬ Undecided decisive (eval host f.toExpr scope) := by
  rw [h.eval_eq]
  simp [Undecided]

/-- Only one leaf is the one that fails. -/
theorem unique (h : FailsAt host scope f i e) (h' : FailsAt host scope f j e') : i = j := by
  induction h generalizing j with
  | atom h =>
      cases h'
      rfl
  | not _ ih | lifted _ ih =>
      cases h'
      exact ih ‹_›
  | left h ih =>
      cases h' with
      | left h' => exact ih h'
      | right undecided _ => exact absurd undecided h.not_undecided
  | right undecided _ ih =>
      cases h' with
      | left h' => exact absurd undecided h'.not_undecided
      | right _ h' => rw [ih h']

end FailsAt

/-- An error is that of a leaf that is evaluated. -/
theorem exists_failsAt {e : EvalError} (h : ∀ e ∈ f.atoms, (eval host e scope).IsTruth)
    (error : eval host f.toExpr scope = .error e) : ∃ i, FailsAt host scope f i e := by
  induction f with
  | atom expr => exact ⟨0, .atom error⟩
  | not f ih =>
      have truth := isTruth_of_atoms (f := f) h
      have negated : negatedIf true (eval host f.toExpr scope) = .error e := error
      obtain ⟨i, fails⟩ := ih h ((negatedIf_eq_error truth).mp negated)
      exact ⟨i, .not fails⟩
  | join decisive l r t hl hr =>
      obtain ⟨left, right⟩ := List.forall_mem_append.mp h
      rw [eval_join, logical_error (isTruth_of_atoms left) (isTruth_of_atoms right)] at error
      rcases error with error | ⟨undecided, error⟩
      · obtain ⟨i, fails⟩ := hl left error
        exact ⟨i, .left fails⟩
      · obtain ⟨i, fails⟩ := hr right error
        exact ⟨_, .right undecided fails⟩
  | lifted checked f ih =>
      rw [toExpr, eval, convert_lifted checked (isTruth_of_atoms (f := f) h)] at error
      obtain ⟨i, fails⟩ := ih h error
      exact ⟨i, .lifted fails⟩

theorem failsAt_normal {i : Nat} {e : EvalError} (negated : Bool)
    (h : ∀ e ∈ f.atoms, (eval host e scope).IsTruth) :
    FailsAt host scope (f.normal negated) i e ↔ FailsAt host scope f i e := by
  induction f generalizing negated i with
  | atom expr =>
      cases negated with
      | false => exact Iff.rfl
      | true => exact ⟨fun | .not fails => fails, .not⟩
  | not f ih =>
      rw [normal, ih (!negated) h]
      exact ⟨.not, fun | .not fails => fails⟩
  | join decisive l r t hl hr =>
      obtain ⟨left, right⟩ := List.forall_mem_append.mp h
      have undecided := undecided_negatedIf decisive negated (isTruth_of_atoms left)
      rw [← eval_normal negated left] at undecided
      refine ⟨fun fails => ?_, fun fails => ?_⟩
      · cases fails with
        | left fails => exact .left ((hl negated left).mp fails)
        | right open_ fails =>
            rw [atoms_normal]
            exact .right (undecided.mp open_) ((hr negated right).mp fails)
      · cases fails with
        | left fails => exact .left ((hl negated left).mpr fails)
        | right open_ fails =>
            have moved := FailsAt.right (t := t) (undecided.mpr open_) ((hr negated right).mpr fails)
            rwa [atoms_normal] at moved
  | lifted checked f ih =>
      refine ⟨fun | .lifted fails => .lifted ((ih negated h).mp fails), ?_⟩
      exact fun | .lifted fails => .lifted ((ih negated h).mpr fails)

/-- Where each leaf is a truth value or fails, the normal form has the leaves of the formula, its
type and its value. Both fail with the same error, which is that of one and the same leaf. -/
theorem negations_inward (host : Host) (scope : Scope) (f : Formula)
    (h : ∀ e ∈ f.atoms, (eval host e scope).IsTruth) :
    let g := f.normal false
    g.IsNormal ∧ g.atoms = f.atoms ∧ g.toExpr.ty = f.toExpr.ty ∧
      eval host g.toExpr scope = eval host f.toExpr scope ∧
      (eval host f.toExpr scope).IsTruth ∧
      ∀ e, eval host f.toExpr scope = .error e →
        ∃ i, FailsAt host scope f i e ∧ FailsAt host scope g i e ∧
          (∃ a, f.atoms[i]? = some a ∧ eval host a scope = .error e) ∧
          ∀ j e', FailsAt host scope f j e' ∨ FailsAt host scope g j e' → j = i := by
  refine ⟨isNormal_normal, atoms_normal, ty_normal, eval_normal false h, isTruth_of_atoms h, ?_⟩
  intro e error
  obtain ⟨i, fails⟩ := exists_failsAt h error
  refine ⟨i, fails, (failsAt_normal false h).mpr fails, fails.atom_fails, ?_⟩
  rintro j e' (other | other)
  · exact other.unique fails
  · exact ((failsAt_normal false h).mp other).unique fails

/-- One divided by zero is one: a leaf that fails. -/
private def failing : Expr :=
  .binary .equal (.binary .divide (.constant (.int32 1) .int32) (.constant (.int32 0) .int32) .int32)
    (.constant (.int32 1) .int32) .boolean

private def unknown : Expr := .constant .null (.nullable .boolean)

/-- An unknown left side leaves the answer to the right one, which fails, also under negations. -/
theorem negations_inward_unknown :
    let host : Host := fun _ _ _ => .error "no host"
    let f : Formula :=
      not (join false (atom unknown) (not (lifted false (atom failing))) (.nullable .boolean))
    (f.normal false).toExpr = .binary .or (.unary .not unknown)
        (.convert false failing (.nullable .boolean)) (.nullable .boolean) ∧
      eval host (f.normal false).toExpr [] = .error .divideByZero ∧
      ∃ i, FailsAt host [] f i .divideByZero ∧ FailsAt host [] (f.normal false) i .divideByZero := by
  intro host f
  have truths : ∀ e ∈ f.atoms, (eval host e []).IsTruth := by
    simp only [f, atoms, List.cons_append, List.nil_append, List.forall_mem_cons]
    exact ⟨.null, .error .divideByZero, List.forall_mem_nil _⟩
  obtain ⟨-, -, -, same, -, fails⟩ := negations_inward host [] f truths
  obtain ⟨i, before, after, -⟩ := fails .divideByZero rfl
  exact ⟨rfl, same, i, before, after⟩

end Formula
end TypedExpr
