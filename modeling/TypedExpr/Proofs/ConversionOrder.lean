import TypedExpr.Proofs.ImplicitConversion

/-! # Types in the order of implicit conversion

A reference is passed to what stands above its type, and a value is widened. Types that go to one
another both ways are equal, and what goes to a type goes on to wherever that type goes: conversions
order all types but enumerations, which go to their numbers and back, and classes with items, whose
items need not be those of the classes above them.
-/

namespace TypedExpr

namespace Ty

/-! ## The types that are ordered -/

/-- No enumeration and no class with items, nor null or sequences of these. -/
inductive Ranked : Ty → Prop where
  | predefined (p : Predefined) : Ranked (.predefined p)
  | nullable {t} (h : Ranked t) (hv : t.isValueType) (hn : t.isNullable = false) :
      Ranked (.nullable t)
  | record (r : RecordType) : Ranked (.record r)
  | cls {c : ClassType} (h : c.elementType? = none) : Ranked (.cls c)
  | lambda (params : List Ty) (result : Ty) : Ranked (.lambda params result)
  | sequence {e} (h : Ranked e) : Ranked (.sequence e)
  | array {e} (h : Ranked e) : Ranked (.array e)

variable {s t u : Ty}

/-- Only values are made to take null in. -/
theorem Ranked.nonNullable_eq (h : t.Ranked) (hv : t.nonNullable.isValueType = false) :
    t.nonNullable = t := by
  cases h with
  | nullable _ value _ => cases hv.symm.trans value
  | _ => rfl

theorem Ranked.nonNullable_ne_enum (h : t.Ranked) (e : EnumType) : t.nonNullable ≠ .enum e := by
  cases h with
  | nullable inner =>
      rintro rfl
      cases inner
  | _ => nofun

end Ty

/-! ## Classes -/

mutual

/-- The links to other classes do not come back. -/
theorem ClassType.sizeOf_lt_of_derivesFrom {d : ClassType} : ∀ {c : ClassType},
    c.derivesFrom d → c = d ∨ sizeOf d < sizeOf c
  | ⟨i, n, base, interfaces, f, e, ps, fs, ms, cs, xs⟩, h => by
      simp only [ClassType.derivesFrom, Bool.or_eq_true, decide_eq_true_eq] at h
      rcases h with (same | h) | h
      · exact .inl same
      · have smaller := sizeOf_lt_of_baseDerivesFrom h
        right
        simp only [ClassType.mk.sizeOf_spec]
        omega
      · have smaller := sizeOf_lt_of_anyDerivesFrom h
        right
        simp only [ClassType.mk.sizeOf_spec]
        omega

private theorem sizeOf_lt_of_baseDerivesFrom {d : ClassType} : ∀ {base : Option ClassType},
    baseDerivesFrom base d → sizeOf d < sizeOf base
  | some c, h => by
      have smaller := ClassType.sizeOf_lt_of_derivesFrom h
      simp only [Option.some.sizeOf_spec]
      rcases smaller with rfl | smaller <;> omega

private theorem sizeOf_lt_of_anyDerivesFrom {d : ClassType} : ∀ {interfaces : List ClassType},
    anyDerivesFrom interfaces d → sizeOf d < sizeOf interfaces
  | c :: cs, h => by
      simp only [anyDerivesFrom, Bool.or_eq_true] at h
      simp only [List.cons.sizeOf_spec]
      rcases h with h | h
      · rcases ClassType.sizeOf_lt_of_derivesFrom h with rfl | smaller <;> omega
      · have smaller := sizeOf_lt_of_anyDerivesFrom h
        omega

end

theorem ClassType.derivesFrom_antisymm {c d : ClassType} (h : c.derivesFrom d)
    (h' : d.derivesFrom c) : c = d := by
  rcases ClassType.sizeOf_lt_of_derivesFrom h with same | smaller
  · exact same
  · rcases ClassType.sizeOf_lt_of_derivesFrom h' with same | smaller'
    · exact same.symm
    · omega

/-! ## Integers -/

namespace IntKind

variable {k l m : IntKind}

theorem fits_trans (h : k.fits l) (h' : l.fits m) : k.fits m := by
  simp only [fits, Bool.and_eq_true, decide_eq_true_eq] at *
  exact ⟨Int.le_trans h'.1 h.1, Int.le_trans h.2 h'.2⟩

theorem fits_antisymm (h : k.fits l) (h' : l.fits k) : k = l := by
  cases k <;> cases l <;>
    first
      | rfl
      | exact absurd h (by decide)
      | exact absurd h' (by decide)

end IntKind

namespace Ty

/-! ## References -/

/-- Values of the first type are stored as they are where the second one is asked for. Only items
that are references can be looked at as items of another type. -/
inductive Below : Ty → Ty → Prop where
  | same {t} : Below t t
  | object {t} : Below t .object
  | characters : Below .string (.sequence .char)
  | derived {c d : ClassType} (h : c.derivesFrom d) : Below (.cls c) (.cls d)
  | items {e} : Below (.array e) (.sequence e)
  | sequence {e e'} (reference : e.isValueType = false) (h : Below e e') :
      Below (.sequence e) (.sequence e')
  | array {e e'} (reference : e.isValueType = false) (h : Below e e') :
      Below (.array e) (.sequence e')

variable {s t u : Ty}

/-- Without classes that have items, assignments ask for nothing else. -/
theorem below_of_isAssignableFrom : ∀ {t s : Ty}, s.Ranked → t.isAssignableFrom s → Below s t
  | .sequence e, s, hs, h => by
      simp only [isAssignableFrom, Bool.or_eq_true, decide_eq_true_eq] at h
      rcases h with rfl | h
      · exact .same
      · have covers : ∀ {e'}, e'.Ranked →
            (e' = e ∨ e'.isValueType = false ∧ e.isAssignableFrom e') →
              e' = e ∨ e'.isValueType = false ∧ Below e' e :=
          fun ranked h => h.imp_right fun h => ⟨h.1, below_of_isAssignableFrom ranked h.2⟩
        cases hs with
        | predefined p =>
            cases p <;> simp [elementType?] at h
            subst h
            exact .characters
        | nullable | record | lambda => simp [elementType?] at h
        | cls none => simp [elementType?, none] at h
        | sequence ranked =>
            rcases covers ranked (by simpa [elementType?] using h) with rfl | ⟨reference, below⟩
            · exact .same
            · exact .sequence reference below
        | array ranked =>
            rcases covers ranked (by simpa [elementType?] using h) with rfl | ⟨reference, below⟩
            · exact .items
            · exact .array reference below
  | .cls c, s, hs, h => by
      cases s with
      | cls d => exact .derived h
      | _ => simp [isAssignableFrom] at h
  | .predefined p, s, hs, h => by
      cases p with
      | object => exact .object
      | _ =>
        cases of_decide_eq_true h
        exact .same
  | .nullable _, s, hs, h | .enum _, s, hs, h | .record _, s, hs, h | .array _, s, hs, h
  | .lambda .., s, hs, h => by
      cases of_decide_eq_true h
      exact .same

theorem Below.isAssignableFrom (h : Below s t) : t.isAssignableFrom s := by
  induction h with
  | @same t =>
      cases t with
      | predefined p => cases p <;> simp [Ty.isAssignableFrom]
      | cls c =>
          cases c
          simp [Ty.isAssignableFrom, ClassType.derivesFrom]
      | _ => simp [Ty.isAssignableFrom]
  | object => rfl
  | characters => rfl
  | derived h => exact h
  | items => simp [Ty.isAssignableFrom, elementType?]
  | sequence reference _ ih | array reference _ ih =>
      simp [Ty.isAssignableFrom, elementType?, reference, ih]

theorem Below.trans (h : Below s t) (h' : Below t u) : Below s u := by
  -- on the second step: its shape leaves few first steps, and items are looked at one level down
  induction h' generalizing s with
  | same => exact h
  | object => exact .object
  | characters =>
      cases h
      exact .characters
  | derived h' =>
      cases h with
      | same => exact .derived h'
      | derived h => exact .derived (ClassType.derivesFrom_trans h' h)
  | items =>
      cases h
      exact .items
  | sequence reference h' ih =>
      cases h with
      | same => exact .sequence reference h'
      | characters => cases reference
      | items => exact .array reference h'
      | sequence reference h => exact .sequence reference (ih h)
      | array reference h => exact .array reference (ih h)
  | array reference h' =>
      cases h
      exact .array reference h'

theorem Below.antisymm (h : Below s t) (h' : Below t s) : s = t := by
  induction h with
  | same => rfl
  | object =>
      cases h'
      · rfl
      · rfl
  | characters => cases h'
  | derived h =>
      cases h' with
      | same => rfl
      | derived h' => rw [ClassType.derivesFrom_antisymm h h']
  | items => cases h'
  | sequence _ _ ih =>
      cases h' with
      | same => rfl
      | sequence _ h' => rw [ih h']
  | array => cases h'

/-- Above a value type there is only `Object`. -/
theorem Below.of_isValueType (h : Below s t) (hs : s.isValueType) : t = s ∨ t = .object := by
  cases h with
  | same => exact .inl rfl
  | object => exact .inr rfl
  | characters | derived | items | sequence | array => cases hs

/-- Below a value type there is only the type itself. -/
theorem Below.eq_of_isValueType (h : Below s t) (ht : t.isValueType) : s = t := by
  cases h with
  | same => rfl
  | object | characters | derived | items | sequence | array => cases ht

/-! ## Values -/

/-- What a widening does: nothing, or it goes from integers to more integers, from integers to
fractions, or to double precision. -/
theorem widensTo_cases (h : s.widensTo t) : s = t ∨
    (∃ k k', s = .integer k ∧ t = .integer k' ∧ k.fits k') ∨
    (∃ k, s = .integer k ∧ t ∈ [Ty.single, .double, .decimal]) ∨ s = .single ∧ t = .double := by
  unfold widensTo at h
  split at h
  · split at h
    · exact .inr (.inl ⟨_, _, rfl, rfl, h⟩)
    · exact .inr (.inr (.inl ⟨_, rfl, by simp⟩))
    · exact .inr (.inr (.inl ⟨_, rfl, by simp⟩))
    · exact .inr (.inr (.inl ⟨_, rfl, by simp⟩))
    · cases h
  · rcases Bool.or_eq_true _ _ ▸ h with h | h
    · exact .inl (of_decide_eq_true h).symm
    · exact .inr (.inr (.inr ⟨rfl, of_decide_eq_true h⟩))
  · exact .inl (of_decide_eq_true h)

theorem widensTo_trans (h : s.widensTo t) (h' : t.widensTo u) : s.widensTo u := by
  rcases widensTo_cases h with rfl | ⟨k, l, rfl, rfl, fits⟩ | ⟨k, rfl, fraction⟩ | ⟨rfl, rfl⟩
  · exact h'
  · simp only [widensTo] at h' ⊢
    split at h'
    · exact IntKind.fits_trans fits h'
    · rfl
    · rfl
    · rfl
    · cases h'
  · simp only [List.mem_cons, List.not_mem_nil, or_false] at fraction
    rcases fraction with rfl | rfl | rfl
    · simp only [widensTo, Bool.or_eq_true, decide_eq_true_eq] at h'
      rcases h' with rfl | rfl <;> rfl
    · cases of_decide_eq_true h'
      rfl
    · cases of_decide_eq_true h'
      rfl
  · cases of_decide_eq_true h'
    rfl

theorem widensTo_antisymm (h : s.widensTo t) (h' : t.widensTo s) : s = t := by
  rcases widensTo_cases h with rfl | ⟨k, l, rfl, rfl, fits⟩ | ⟨k, rfl, fraction⟩ | ⟨rfl, rfl⟩
  · rfl
  · rw [IntKind.fits_antisymm fits h']
  · -- no fraction goes to integers
    simp only [List.mem_cons, List.not_mem_nil, or_false] at fraction
    rcases fraction with rfl | rfl | rfl <;> cases h'
  · cases h'

/-- Values are widened, and null goes along. -/
structure Widens (s t : Ty) : Prop where
  source : s.isValueType
  target : t.isValueType
  null : s.isNullable → t.isNullable
  wide : s.nonNullable.widensTo t.nonNullable

theorem Widens.trans (h : Widens s t) (h' : Widens t u) : Widens s u :=
  ⟨h.source, h'.target, fun null => h'.null (h.null null), widensTo_trans h.wide h'.wide⟩

theorem Widens.antisymm (h : Widens s t) (h' : Widens t s) : s = t := by
  have same := widensTo_antisymm h.wide h'.wide
  have null : s.isNullable ↔ t.isNullable := ⟨h.null, h'.null⟩
  cases s <;> cases t <;> simp_all [nonNullable, isNullable]

/-! ## All conversions -/

theorem widensTo_refl (t : Ty) : t.widensTo t := by
  unfold widensTo
  split
  · simp [IntKind.fits]
  · simp
  · simp

theorem widensTo_of_goes (h : Value.Goes s t) (hs : ∀ e, s ≠ .enum e) (ht : ∀ e, t ≠ .enum e) :
    s.widensTo t := by
  cases h with
  | same => exact widensTo_refl _
  | toNumber => exact absurd rfl (hs _)
  | toMember => exact absurd rfl (ht _)
  | words h => exact h
  | single => rfl

/-- What is widened to a value type is of a value type. -/
theorem isValueType_of_widensTo (ht : t.Ranked) (value : t.isValueType)
    (h : s.nonNullable.widensTo t.nonNullable) : s.isValueType := by
  by_contra reference
  have alone : s.nonNullable = s := by
    cases s with
    | nullable => exact absurd rfl reference
    | _ => rfl
  rw [alone] at h
  rcases widensTo_cases h with same | ⟨_, _, rfl, -, -⟩ | ⟨_, rfl, -⟩ | ⟨rfl, -⟩
  · rw [same, Bool.not_eq_true] at reference
    rw [ht.nonNullable_eq reference, value] at reference
    cases reference
  · exact reference rfl
  · exact reference rfl
  · exact reference rfl

theorem Below.convertsTo (h : Below s t) : s.convertsTo t := by
  by_cases same : s = t
  · simp [Ty.convertsTo, same]
  · cases value : t.isValueType with
    | true => exact absurd (h.eq_of_isValueType value) same
    | false =>
        rw [Ty.convertsTo, if_neg same]
        simpa [value] using h.isAssignableFrom

theorem Widens.convertsTo (hs : s.Ranked) (ht : t.Ranked) (h : Widens s t) : s.convertsTo t := by
  by_cases same : s = t
  · simp [Ty.convertsTo, same]
  · obtain ⟨-, value, null, wide⟩ := h
    have noLoss : (s.isNullable && !t.isNullable) = false := by
      cases nullable : s.isNullable with
      | false => rfl
      | true => simp [null nullable]
    rw [Ty.convertsTo, if_neg same, value, noLoss]
    simp only [Bool.not_true, Bool.false_eq_true, if_false]
    split
    · exact absurd ‹_› (hs.nonNullable_ne_enum _)
    · exact absurd ‹_› (hs.nonNullable_ne_enum _)
    · exact absurd ‹_› (ht.nonNullable_ne_enum _)
    · exact wide

/-- A type goes to another one as a reference or as a widened value. -/
theorem convertsTo_iff (hs : s.Ranked) (ht : t.Ranked) :
    s.convertsTo t ↔ Below s t ∨ Widens s t := by
  constructor
  · intro h
    rcases Value.convertsTo_forms h with rfl | ⟨-, assignable⟩ | ⟨null, goes⟩
    · exact .inl .same
    · exact .inl (below_of_isAssignableFrom hs assignable)
    · have wide := widensTo_of_goes goes hs.nonNullable_ne_enum ht.nonNullable_ne_enum
      cases value : t.isValueType with
      | true => exact .inr ⟨isValueType_of_widensTo ht value wide, value, null, wide⟩
      | false =>
          -- where a reference is asked for, nothing else than an assignment is left
          rw [convertsTo, value] at h
          split at h
          · rename_i same
            exact .inl (same ▸ .same)
          · exact .inl (below_of_isAssignableFrom hs (by simpa using h))
  · rintro (below | widens)
    · exact below.convertsTo
    · exact widens.convertsTo hs ht

/-- Implicit conversion is a partial order of the types. -/
theorem convertsTo_partialOrder :
    (∀ t : Ty, t.Ranked → t.convertsTo t) ∧
    (∀ s t u : Ty, s.Ranked → t.Ranked → u.Ranked →
      s.convertsTo t → t.convertsTo u → s.convertsTo u) ∧
    (∀ s t : Ty, s.Ranked → t.Ranked → s.convertsTo t → t.convertsTo s → s = t) := by
  refine ⟨?_, ?_, ?_⟩
  · intro t _
    simp [convertsTo]
  · intro s t u hs ht hu h h'
    rw [convertsTo_iff hs ht] at h
    rw [convertsTo_iff ht hu] at h'
    rw [convertsTo_iff hs hu]
    rcases h with below | widens
    · rcases h' with below' | widens'
      · exact .inl (below.trans below')
      · rw [below.eq_of_isValueType widens'.source]
        exact .inr widens'
    · rcases h' with below' | widens'
      · rcases below'.of_isValueType widens.target with rfl | rfl
        · exact .inr widens
        · exact .inl .object
      · exact .inr (widens.trans widens')
  · intro s t hs ht h h'
    rw [convertsTo_iff hs ht] at h
    rw [convertsTo_iff ht hs] at h'
    rcases h with below | widens
    · rcases h' with below' | widens'
      · exact below.antisymm below'
      · exact below.eq_of_isValueType widens'.source
    · rcases h' with below' | widens'
      · exact (below'.eq_of_isValueType widens.source).symm
      · exact widens.antisymm widens'

/-- Texts are taken for sequences of characters, and sequences of these for sequences of objects. -/
theorem convertsTo_partialOrder_texts :
    let texts : Ty := .array .string
    let lines : Ty := .sequence (.sequence .char)
    texts.convertsTo lines ∧ lines.convertsTo (.sequence .object) ∧
      texts.convertsTo (.sequence .object) ∧ lines.convertsTo lines ∧ lines = lines := by
  intro texts lines
  have first : texts.convertsTo lines := by decide
  have second : lines.convertsTo (.sequence .object) := by decide
  have ranked : lines.Ranked := .sequence (.sequence (.predefined .char))
  have still := convertsTo_partialOrder.1 lines ranked
  exact ⟨first, second,
    convertsTo_partialOrder.2.1 _ _ _ (.array (.predefined .string)) ranked
      (.sequence (.predefined .object)) first second,
    still, convertsTo_partialOrder.2.2 _ _ ranked ranked still still⟩

/-- A class with texts as its items, below a class with numbers as its items, is no sequence of
numbers. -/
example :
    let numbers : ClassType := ⟨0, "Numbers", none, [], false, some .int32, [], [], [], [], []⟩
    let words : ClassType :=
      ⟨1, "Words", some numbers, [], false, some .string, [], [], [], [], []⟩
    (cls words).convertsTo (.cls numbers) ∧ (cls numbers).convertsTo (.sequence .int32) ∧
      (cls words).convertsTo (.sequence .int32) = false := by
  decide

end Ty
end TypedExpr
