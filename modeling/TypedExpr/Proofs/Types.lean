import TypedExpr.Ty.Conversion

/-! # Which types stand above which

Only references stand for one another. A value type is above no type but itself, so that every
conversion to one makes a new value. An enumeration goes to few types: to `Object`, to itself with
null, and to the numbers of its members.
-/

namespace TypedExpr.Ty

variable {s t : Ty} {e : EnumType} {k : IntKind}

theorem isAssignableFrom_of_isValueType {t : Ty} (s : Ty) (ht : t.isValueType) :
    t.isAssignableFrom s = decide (t = s) := by
  cases t with
  | predefined p => cases p <;> first | rfl | cases ht
  | nullable | enum => rfl
  | _ => cases ht

theorem eq_of_nonNullable (h : t.nonNullable = s) : t = s ∨ t = .nullable s := by
  cases t with
  | nullable inner => exact .inr (congrArg nullable h)
  | _ => exact .inl h

/-! ## Enumerations -/

theorem nonNullable_of_isEnum (h : t.isEnum) : ∃ e, t.nonNullable = .enum e := by
  unfold isEnum at h
  split at h
  · exact ⟨_, ‹_›⟩
  · cases h

/-- No reference but an `Object` can be a member of an enumeration. -/
theorem eq_object_of_isAssignableFrom_enum (hs : s.nonNullable = .enum e)
    (ht : t.isValueType = false) (h : t.isAssignableFrom s) : t = .object := by
  have cases := eq_of_nonNullable hs
  cases t with
  | predefined p =>
      cases p with
      | object => rfl
      | string | math | convert => rcases cases with rfl | rfl <;> cases of_decide_eq_true h
      | _ => cases ht
  | sequence | record | cls | array | lambda =>
      rcases cases with rfl | rfl <;> simp [isAssignableFrom, elementType?] at h
  | nullable | enum => cases ht

theorem convertsTo_of_enum (hs : s.nonNullable = .enum e) (under : e.underlying = .integer k)
    (different : s ≠ t) (h : s.convertsTo t) : t = .object ∨
      s = .enum e ∧ t = .nullable (.enum e) ∨ t.nonNullable = .integer k := by
  rw [convertsTo, if_neg different] at h
  split at h
  · rename_i reference
    exact .inl (eq_object_of_isAssignableFrom_enum hs (by simpa using reference) h)
  · split at h
    · cases h
    · rename_i nulls
      rw [hs] at h
      split at h
      · rename_i source target
        cases source
        cases of_decide_eq_true h
        -- the enumeration without null goes to the one with null, and not back
        refine .inr (.inl ?_)
        rcases eq_of_nonNullable hs with rfl | rfl
        · rcases eq_of_nonNullable target with rfl | rfl
          · exact absurd rfl different
          · exact ⟨rfl, rfl⟩
        · rcases eq_of_nonNullable target with rfl | rfl
          · exact absurd rfl nulls
          · exact absurd rfl different
      · rename_i source _
        cases source
        exact .inr (.inr ((of_decide_eq_true h).trans under))
      · rename_i other
        exact absurd rfl (other e)
      · rename_i other _ _
        exact absurd rfl (other e)

/-- No reference is a member of an enumeration or one of its numbers. -/
theorem object_convertsTo_enum (ht : t.nonNullable = .enum e) (under : e.underlying = .integer k) :
    object.convertsTo t = false := by
  rcases eq_of_nonNullable ht with rfl | rfl <;>
    simp [convertsTo, isValueType, isNullable, nonNullable, under]

end TypedExpr.Ty
