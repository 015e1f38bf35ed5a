import TypedExpr.Proofs.OverloadChoice

/-! # Overloads that match exactly

No target is better for a value than its own type, and every other one is worse. So an overload
with just the types of the arguments applies without a change to them, and is better than each
other overload that applies, wherever the two differ.
-/

namespace TypedExpr

namespace Ty

/-- For a value of a type the type itself is a better target than any other. -/
theorem compareTargets_self {t u : Ty} : t.compareTargets t u = if t = u then .eq else .gt := by
  unfold compareTargets
  split
  · rfl
  · exact if_pos rfl

end Ty

namespace Overload

variable {α : Type} {place : α} {args : List Operand} {m n : Method} {before after : List Method}

/-- The parameters have the types of the arguments, and none is only for output. -/
def Exact (args : List Operand) (m : Method) : Prop := m.params = args.map fun a => ⟨a.ty, false⟩

instance : Decidable (Exact args m) :=
  inferInstanceAs (Decidable (m.params = args.map fun a => ⟨a.ty, false⟩))

theorem promoteAll?_own (args : List Operand) :
    promoteAll? (args.map fun a => ⟨a.ty, false⟩) args = some args := by
  induction args with
  | nil => rfl
  | cons a as ih =>
      have kept : a.promote? a.ty false = some a := if_pos rfl
      simp [promoteAll?, kept, ih]

theorem Exact.applies (h : Exact args m) : candidate? args m = some ⟨m, args⟩ := by
  rw [candidate?, h, promoteAll?_own]
  rfl

theorem noWorse_own (args : List Operand) (ps : List Param) :
    noWorse args (args.map fun a => ⟨a.ty, false⟩) ps := by
  induction args generalizing ps with
  | nil => rfl
  | cons a as ih =>
      cases ps with
      | nil => rfl
      | cons p ps =>
          simp only [List.map_cons, noWorse, ih ps, Bool.and_true, Ty.compareTargets_self]
          split <;> rfl

/-- Parameters that the arguments can be passed to are those of an exact match, or one of them is a
worse target. -/
theorem somewhereBetter_own {ps : List Param} {passed : List Operand}
    (applies : promoteAll? ps args = some passed) (other : ps ≠ args.map fun a => ⟨a.ty, false⟩) :
    somewhereBetter args (args.map fun a => ⟨a.ty, false⟩) ps := by
  induction args generalizing ps passed with
  | nil =>
      cases ps with
      | nil => exact absurd rfl other
      | cons p ps => cases applies
  | cons a as ih =>
      cases ps with
      | nil => cases applies
      | cons p ps =>
          simp only [promoteAll?, Option.bind_eq_bind] at applies
          split at applies
          · cases applies
          · rename_i inward
            obtain ⟨a', -, applies⟩ := Option.bind_eq_some_iff.mp applies
            obtain ⟨as', rest, -⟩ := Option.bind_eq_some_iff.mp applies
            simp only [List.map_cons, somewhereBetter, Ty.compareTargets_self, Bool.or_eq_true]
            by_cases same : a.ty = p.ty
            · refine .inr (ih rest fun equal => other ?_)
              have first : p = ⟨a.ty, false⟩ := by
                cases p
                simp_all
              rw [List.map_cons, equal, first]
            · rw [if_neg same]
              exact .inl rfl

theorem Exact.isBetter (h : Exact args m) {c : Candidate} (applies : candidate? args n = some c)
    (other : ¬ Exact args n) : isBetter args m n := by
  obtain ⟨passed, applies, -⟩ := Option.map_eq_some_iff.mp applies
  rw [Overload.isBetter, h, noWorse_own, somewhereBetter_own applies other]
  rfl

theorem Exact.resolve (h : Exact args m) (others : ∀ n ∈ before ++ after, ¬ Exact args n) :
    resolve place (before ++ m :: after) args = .found place m args := by
  have applicable_eq : applicable args (before ++ m :: after) =
      applicable args before ++ ⟨m, args⟩ :: applicable args after := by
    rw [applicable, List.filterMap_append, List.filterMap_cons_some h.applies]
    rfl
  refine resolve_found_iff.mpr ⟨rfl, applicable args before ++ applicable args after, ?_, ?_⟩
  · rw [applicable_eq]
    exact List.perm_middle
  · intro d hd
    rw [applicable, applicable, ← List.filterMap_append] at hd
    obtain ⟨there, applies⟩ := mem_applicable.mp hd
    exact h.isBetter applies (others d.method there)

/-- Of overloads of which just one has the types of the arguments for its parameters, none of them
only for output, this one is chosen, and the arguments stay as they were, whatever they are and
whatever else applies to them. -/
theorem exact_match_wins (place : α) (args : List Operand) (m : Method) (before after : List Method)
    (exact : Exact args m) (others : ∀ n ∈ before ++ after, ¬ Exact args n) :
    resolve place (before ++ m :: after) args = .found place m args ∧
      (resolveInPlace place (before ++ m :: after)).run args = (.found place m args, args) := by
  have found : resolve place (before ++ m :: after) args = .found place m args :=
    exact.resolve others
  refine ⟨found, ?_⟩
  rw [resolveInPlace_run, found, Resolution.argsOr]

/-- A literal that could become any number, and the word `null`, which goes to any reference. -/
theorem exact_match_wins_literals :
    let one := Operand.literal (.int32 1) "1"
    let methods := [Method.signature "F" [.byte, .string], Method.signature "F" [.int64, .object],
      Method.signature "F" [.int32, .object], Method.signature "F" [.int32, .nullable .guid]]
    (applicable [one, .nullLiteral] methods).length = 4 ∧
      resolve () methods [one, .nullLiteral] =
        .found () (Method.signature "F" [.int32, .object]) [one, .nullLiteral] := by
  intro one methods
  refine ⟨by decide +kernel, ?_⟩
  refine (exact_match_wins () [one, .nullLiteral] (Method.signature "F" [.int32, .object])
    [Method.signature "F" [.byte, .string], Method.signature "F" [.int64, .object]]
    [Method.signature "F" [.int32, .nullable .guid]] rfl ?_).1
  decide +kernel

end Overload
end TypedExpr
