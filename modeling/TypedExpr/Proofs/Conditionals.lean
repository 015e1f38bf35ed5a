import TypedExpr.Eval
import TypedExpr.Proofs.ExactOperands

/-! # Branches of a conditional

Two branches are of one type, or just one of them goes to the type of the other. This does not
depend on which of them is named first. So the branches can change their places, and where the test
is negated as well the conditional has the same value.
-/

namespace TypedExpr

namespace Operand

/-- Two branches and what they become in one type. -/
inductive Reconciled (a b : Operand) : Operand → Operand → Prop where
  | same (h : a.ty = b.ty) : Reconciled a b a b
  | first {a'} (differ : a.ty ≠ b.ty) (goes : a.toBranch? b = some a')
      (stays : b.toBranch? a = none) : Reconciled a b a' b
  | second {b'} (differ : a.ty ≠ b.ty) (stays : a.toBranch? b = none)
      (goes : b.toBranch? a = some b') : Reconciled a b a b'

variable {test a b a' b' c : Operand} {pos : Nat}

theorem toBranch?_ty (h : a.toBranch? b = some a') : a'.ty = b.ty := by
  unfold toBranch? at h
  split at h
  · cases h
  · exact (promote?_exact h).2

namespace Reconciled

theorem ty_eq (h : Reconciled a b a' b') : a'.ty = b'.ty := by
  cases h with
  | same h => exact h
  | first _ goes _ => exact toBranch?_ty goes
  | second _ _ goes => exact (toBranch?_ty goes).symm

theorem symm (h : Reconciled a b a' b') : Reconciled b a b' a' := by
  cases h with
  | same h => exact .same h.symm
  | first differ goes stays => exact .second (Ne.symm differ) stays goes
  | second differ stays goes => exact .first (Ne.symm differ) goes stays

end Reconciled

/-- A conditional is accepted if it tests a truth value and its branches are reconciled. -/
theorem conditional_ok_iff : conditional test a b pos = .ok c ↔ test.ty = .boolean ∧
    ∃ a' b', Reconciled a b a' b' ∧ c = plain (.conditional test.expr a'.expr b'.expr) := by
  refine ⟨fun made => ?_, ?_⟩
  · unfold conditional at made
    split at made
    · cases made
    · rename_i truth
      refine ⟨Decidable.of_not_not truth, ?_⟩
      split at made
      · cases made
        exact ⟨a, b, .same ‹_›, rfl⟩
      · rename_i differ
        split at made
        · rename_i a' goes stays
          cases made
          exact ⟨a', b, .first differ goes stays, rfl⟩
        · rename_i b' stays goes
          cases made
          exact ⟨a, b', .second differ stays goes, rfl⟩
        · cases made
        · cases made
  · rintro ⟨truth, a', b', reconciled, rfl⟩
    cases reconciled with
    | same h => simp [conditional, truth, h]
    | first differ goes stays => simp [conditional, truth, differ, goes, stays]
    | second differ stays goes => simp [conditional, truth, differ, goes, stays]

/-- A truth value can be negated, however it is written. -/
theorem unary_not (h : test.ty = .boolean) (sign : Token) :
    unary sign .not test = .ok (plain (.unary .not test.expr)) := by
  have own : ∀ o ∈ [test], o.ty = .boolean := by simpa using h
  let truths := OperatorClass.withNull [.boolean]
  let layer := OperatorClass.uniform 1 truths
  have distinct : truths.Nodup := by decide
  have chosen : Overload.resolve layer layer [test] =
      .found layer (Method.signature "F" [.boolean]) [test] :=
    Overload.resolve_uniform own distinct (by decide) (by simp)
  have found : Overload.resolveLayers id [test] (unaryClass .not).layers =
      .found layer (Method.signature "F" [.boolean]) [test] := by
    change Overload.resolveLayers id [test] [layer] = _
    rw [Overload.resolveLayers, id, chosen]
  rw [unary, found]

end Operand

/-- A negated test chooses the other branch. -/
theorem Expr.eval_conditional_not {host : Host} {scope : Scope} {test : Expr}
    (h : ∀ v, eval host test scope = .ok v → ∃ x, v = .boolean x) (a b : Expr) :
    eval host (.conditional (.unary .not test) b a) scope =
      eval host (.conditional test a b) scope := by
  rw [eval, eval, eval]
  cases value : eval host test scope with
  | error e => rfl
  | ok v =>
      obtain ⟨x, rfl⟩ := h v value
      cases x <;> rfl

namespace Operand

variable {test a b c : Operand} {pos : Nat}

/-- A conditional is made with its branches in the other order as well, in the same type, and where
its test is negated then it has the same value. -/
theorem conditional_turned (made : conditional test a b pos = .ok c) (pos' : Nat) (sign : Token) :
    ∃ swapped negation turned,
      conditional test b a pos' = .ok swapped ∧ swapped.ty = c.ty ∧
      unary sign .not test = .ok negation ∧
      conditional negation b a pos' = .ok turned ∧ turned.ty = c.ty ∧
      ∀ host scope, (∀ v, Expr.eval host test.expr scope = .ok v → ∃ x, v = .boolean x) →
        Expr.eval host turned.expr scope = Expr.eval host c.expr scope := by
  obtain ⟨truth, a', b', reconciled, rfl⟩ := conditional_ok_iff.mp made
  have negation : (plain (.unary .not test.expr)).ty = .boolean := truth
  have swapped : conditional test b a pos' = .ok _ :=
    conditional_ok_iff.mpr ⟨truth, b', a', reconciled.symm, rfl⟩
  have turned : conditional (plain (.unary .not test.expr)) b a pos' = .ok _ :=
    conditional_ok_iff.mpr ⟨negation, b', a', reconciled.symm, rfl⟩
  exact ⟨_, _, _, swapped, reconciled.ty_eq.symm, unary_not truth sign, turned,
    reconciled.ty_eq.symm, fun host scope truthful => Expr.eval_conditional_not truthful _ _⟩

end Operand

end TypedExpr
