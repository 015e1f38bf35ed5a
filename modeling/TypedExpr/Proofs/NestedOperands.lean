import TypedExpr.Proofs.FormedMembers
import TypedExpr.Proofs.Height

/-! # How operands are nested

What an operator or a member makes of its operands is nested one level deeper than its arguments,
but no deeper than the operand on its left. To bring an operand to another type adds no level.
-/

namespace TypedExpr

open Expr

variable {k : Nat}

namespace Operand

theorem Promoted.nesting_le {o o' : Operand} {t : Ty} (h : Promoted o t o') :
    o'.expr.nesting ≤ o.expr.nesting := by
  cases h with
  | same => exact Nat.le_refl _
  | literal => simpa [plain] using Nat.succ_le_of_lt o.expr.nesting_pos
  | converted => simp [plain]

end Operand

theorem Overload.Passed.nesting_le {args passed : List Operand} {params : List Param}
    (h : Passed args params passed) (hargs : ∀ a ∈ args, a.expr.nesting ≤ k) :
    ∀ e ∈ passed.map (·.expr), e.nesting ≤ k := by
  intro e he
  obtain ⟨a', ha', rfl⟩ := List.mem_map.mp he
  obtain ⟨a, ha, _, -, promoted⟩ := h.promoted a' ha'
  exact Nat.le_trans promoted.nesting_le (hargs a ha)

namespace Operand

variable {t : Ty} {args : List Operand} {name : String} {pos : Nat} {o : Operand}

theorem property_nesting {target : Option Operand} (ht : ∀ s ∈ target, s.expr.nesting ≤ k + 1)
    (h : property t target name pos = .ok o) : o.expr.nesting ≤ k + 1 := by
  simp only [property] at h
  split at h
  · cases h
    rw [plain, Expr.nesting_le]
    simpa [first?, others] using ht
  · cases h

theorem method_nesting {target : Option Operand} (ht : ∀ s ∈ target, s.expr.nesting ≤ k + 1)
    (hargs : ∀ a ∈ args, a.expr.nesting ≤ k) (h : method t target name args pos = .ok o) :
    o.expr.nesting ≤ k + 1 := by
  obtain ⟨_, _, passed, -, -, hp, -, -, rfl⟩ := method_ok h
  exact nesting_call (by simpa using ht) (hp.nesting_le hargs)

theorem aggregate_nesting {source : Operand} {item : Parameter} (hs : source.expr.nesting ≤ k + 1)
    (hargs : ∀ a ∈ args, a.expr.nesting ≤ k)
    (h : source.aggregate item name args pos = .ok o) : o.expr.nesting ≤ k + 1 := by
  simp only [aggregate] at h
  split at h
  · cases h
  · split at h
    · rename_i passed found
      cases h
      obtain ⟨-, -, hp⟩ := Overload.resolve_found found
      rw [plain, Expr.nesting_le]
      refine ⟨by simpa [first?] using hs, fun p body => hp.nesting_le hargs p ?_⟩
      obtain ⟨a, first, rfl⟩ : ∃ a, passed.head? = some a ∧ a.expr = p := by
        simpa [others] using body
      exact List.mem_map_of_mem (List.mem_of_mem_head? first)
    · cases h

theorem index_nesting {target : Operand} (ht : target.expr.nesting ≤ k + 1)
    (hargs : ∀ a ∈ args, a.expr.nesting ≤ k) (h : target.index args pos = .ok o) :
    o.expr.nesting ≤ k + 1 := by
  simp only [index] at h
  split at h
  · split at h
    · split at h
      · rename_i promoted
        cases h
        have index := Nat.le_trans (promote?_exact promoted).1.nesting_le (hargs _ (by simp))
        rw [plain, Expr.nesting_le]
        simpa [first?, others] using ⟨ht, index⟩
      · cases h
    · cases h
  · split at h
    · cases h
    · cases h
    · rename_i found
      cases h
      obtain ⟨-, -, hp⟩ := Overload.resolveLayers_found found
      exact nesting_call (by simpa using ht) (hp.nesting_le hargs)

theorem convert_nesting {a : Operand} (h : a.convert t pos = .ok o) :
    o.expr.nesting = a.expr.nesting := by
  simp only [convert] at h
  split at h
  · cases h
    rfl
  · repeat' split at h
    all_goals
      cases h
      try simp [plain]

theorem construct_nesting (hargs : ∀ a ∈ args, a.expr.nesting ≤ k)
    (h : construct t args pos = .ok o) : o.expr.nesting ≤ k + 1 := by
  simp only [construct] at h
  split at h
  · rename_i found
    cases h
    obtain ⟨-, -, hp⟩ := Overload.resolve_found found
    rw [plain, Expr.nesting_le]
    exact ⟨by simp [first?], hp.nesting_le hargs⟩
  · cases h
  · split at h
    · rw [convert_nesting h]
      exact Nat.le_succ_of_le (hargs _ (by simp))
    · cases h

theorem toBranch?_nesting {a b a' : Operand} (h : a.toBranch? b = some a') :
    a'.expr.nesting ≤ a.expr.nesting := by
  simp only [toBranch?] at h
  split at h
  · cases h
  · exact (promote?_exact h).1.nesting_le

theorem conditional_nesting {test whenTrue whenFalse : Operand} (htest : test.expr.nesting ≤ k)
    (htrue : whenTrue.expr.nesting ≤ k) (hfalse : whenFalse.expr.nesting ≤ k)
    (h : conditional test whenTrue whenFalse pos = .ok o) : o.expr.nesting ≤ k + 1 := by
  simp only [conditional] at h
  split at h
  · cases h
  · split at h
    · cases h
      exact nesting_conditional htest htrue hfalse
    · split at h
      · rename_i given _
        cases h
        exact nesting_conditional htest (Nat.le_trans (toBranch?_nesting given) htrue) hfalse
      · rename_i _ given
        cases h
        exact nesting_conditional htest htrue (Nat.le_trans (toBranch?_nesting given) hfalse)
      · cases h
      · cases h

theorem unary_nesting {t : Token} {op : UnaryOp} {a : Operand} (ha : a.expr.nesting ≤ k)
    (h : unary t op a = .ok o) : o.expr.nesting ≤ k + 1 := by
  simp only [unary] at h
  split at h
  · rename_i found
    cases h
    obtain ⟨-, -, hp⟩ := Overload.resolveLayers_found found
    have passed := hp.nesting_le (k := k) (by simpa using ha)
    rw [plain, Expr.nesting_le]
    simpa [first?, others] using passed
  · cases h

/-- Operands are brought to one type without further nesting. -/
theorem promoteBoth_nesting {c : OperatorClass} {t : Token} {l r l' r' : Operand}
    (h : promoteBoth c t l r = .ok (l', r')) :
    l'.expr.nesting ≤ l.expr.nesting ∧ r'.expr.nesting ≤ r.expr.nesting := by
  simp only [promoteBoth] at h
  split at h
  · rename_i found
    cases h
    have places := Overload.promoteAll?_places (Overload.resolveLayers_promotes found)
    simp only [List.forall₂_cons, List.forall₂_nil_left_iff, and_true] at places
    obtain ⟨⟨_, left⟩, ⟨_, right⟩⟩ := places
    exact ⟨left.nesting_le, right.nesting_le⟩
  · cases h

theorem relate_nesting {t : Token} {op : BinaryOp} {l r l' r' : Operand}
    (h : relate t op l r = .ok (l', r')) :
    l'.expr.nesting ≤ l.expr.nesting ∧ r'.expr.nesting ≤ r.expr.nesting := by
  simp only [relate] at h
  split at h
  · simp only [relateReferences] at h
    repeat' split at h
    all_goals
      cases h
      try simp [plain]
  · split at h
    · simp only [relateEnums] at h
      split at h
      · cases h
        exact ⟨Nat.le_refl _, Nat.le_refl _⟩
      · split at h
        · rename_i promoted
          cases h
          exact ⟨Nat.le_refl _, (promote?_exact promoted).1.nesting_le⟩
        · rename_i promoted
          cases h
          exact ⟨(promote?_exact promoted).1.nesting_le, Nat.le_refl _⟩
        · cases h
    · exact promoteBoth_nesting h

theorem boxed_nesting (o : Operand) : o.boxed.nesting = o.expr.nesting := by
  unfold boxed
  split <;> simp

theorem compared_nesting {t : Token} {op : BinaryOp} {l r : Operand}
    (hl : l.expr.nesting ≤ k + 1) (hr : r.expr.nesting ≤ k) (h : compared t op l r = .ok o) :
    o.expr.nesting ≤ k + 1 := by
  simp only [compared] at h
  cases both : relate t op l r with
  | error e => rw [both] at h; cases h
  | ok parts =>
      obtain ⟨l', r'⟩ := parts
      obtain ⟨left, right⟩ := relate_nesting both
      replace left := Nat.le_trans left hl
      replace right := Nat.le_trans right hr
      rw [both] at h
      change (if _ then _ else _) = _ at h
      split at h
      · cases h
        have some : 1 ≤ k := Nat.le_trans r.expr.nesting_pos hr
        exact nesting_binary (nesting_joined left right) (by simpa using some)
      · cases h
        exact nesting_binary left right

/-- A right operand is nested in the operator, a left one goes on with it. -/
theorem binary_nesting {t : Token} {l r : Operand} (hl : l.expr.nesting ≤ k + 1)
    (hr : r.expr.nesting ≤ k) (h : binary t l r = .ok o) : o.expr.nesting ≤ k + 1 := by
  simp only [binary] at h
  split at h
  · cases h
    exact nesting_joined (by rwa [boxed_nesting]) (by rwa [boxed_nesting])
  · split at h
    · cases h
    · rename_i op _
      split at h
      · exact compared_nesting hl hr h
      · cases both : promoteBoth (OperatorClass.ofBinary op) t l r with
        | error e => rw [both] at h; cases h
        | ok parts =>
            obtain ⟨l', r'⟩ := parts
            obtain ⟨left, right⟩ := promoteBoth_nesting both
            rw [both] at h
            cases h
            exact nesting_binary (Nat.le_trans left hl) (Nat.le_trans right hr)

end Operand
end TypedExpr
