import TypedExpr.Eval
import TypedExpr.Operand.Member
import TypedExpr.Proofs.Integer
import TypedExpr.Proofs.Outcome
import TypedExpr.Proofs.Types

/-! # Conversions to integers that are asked for

A type of integers called with one argument is a conversion. Between types of numbers it is checked:
a number that does not fit is refused. Where the static type of the argument is a reference, such as
`Object`, the same conversion is not checked, and a number that does not fit is wrapped. Faithful is
an outcome that shows no other number than the argument without its fraction.
-/

namespace TypedExpr

namespace BinaryValue

/-- The bounds of 128 bits do not get in the way of a word of a kind. -/
theorem holds_toInt {k : IntKind} {x : BinaryValue} {n : Int} (h : x.truncated? = some n) :
    (k.Holds x.toInt ↔ k.Holds n) ∧ (k.Holds n → x.toInt = n) := by
  cases x with
  | notANumber => cases h
  | infinite negative => cases h
  | finite negative m e =>
      have clamped : toInt (.finite negative m e) = max (-2 ^ 127) (min (2 ^ 127 - 1) n) := by
        simp only [toInt, h, Option.getD_some]
      rw [clamped]
      have keeps : k.Holds n → max (-2 ^ 127) (min (2 ^ 127 - 1) n) = n := by
        intro hn
        have := hn.short
        omega
      refine ⟨⟨?_, ?_⟩, keeps⟩
      · -- an end of the 128 bits is no word, so that the integer is the number itself
        intro hn
        have inside := hn.short
        have same : max (-2 ^ 127) (min (2 ^ 127 - 1) n) = n := by omega
        rwa [same] at hn
      · intro hn
        rwa [keeps hn]

end BinaryValue

namespace Value

/-- A number, a character or a member of an enumeration. -/
def isNumber : Value → Bool
  | integer .. | char _ | enum .. | single _ | double _ | decimal _ => true
  | _ => false

/-- A number without its fraction. Infinities and NaN have no integral part. -/
def truncated? : Value → Option Int
  | single x => (Binary.ofFloat32 x).truncated?
  | double x => (Binary.ofFloat x).truncated?
  | decimal d => some d.truncate
  | v => v.toInt?

/-- The integer that an unchecked conversion goes on with. -/
def carried : Value → Int
  | single x => (Binary.ofFloat32 x).toInt
  | double x => (Binary.ofFloat x).toInt
  | decimal d => d.truncate
  | v => v.toInt?.getD 0

theorem holds_carried {k : IntKind} {v : Value} {n : Int} (h : v.truncated? = some n) :
    (k.Holds v.carried ↔ k.Holds n) ∧ (k.Holds n → v.carried = n) := by
  cases v with
  | single x => exact BinaryValue.holds_toInt h
  | double x => exact BinaryValue.holds_toInt h
  | integer | char | enum | decimal =>
      cases h
      exact ⟨Iff.rfl, fun _ => rfl⟩
  | _ => cases h

theorem toIntegral_unchecked {v : Value} (t : Ty) (h : v.isNumber) :
    v.toIntegral t false = .ok v.carried := by
  cases v with
  | integer | char | enum | single | double | decimal => rfl
  | _ => cases h

private theorem ofBinary_checked (x : BinaryValue) : toIntegral.ofBinary true x =
    if x.truncated?.isSome then .ok x.toInt else .error .overflow := by
  cases x <;> rfl

theorem toIntegral_checked {v : Value} (t : Ty) (h : v.isNumber) :
    v.toIntegral t true = if v.truncated?.isSome then .ok v.carried else .error .overflow := by
  cases v with
  | single x => exact ofBinary_checked (Binary.ofFloat32 x)
  | double x => exact ofBinary_checked (Binary.ofFloat x)
  | integer | char | enum | decimal => rfl
  | _ => cases h

theorem isNull_of_isNumber {v : Value} (h : v.isNumber) : v.isNull = false := by
  cases v <;> first | rfl | cases h

/-- What an unchecked conversion of a number to words makes of it. -/
theorem convert_unchecked {k : IntKind} {v : Value} (h : v.isNumber) :
    v.convert false (.integer k) = .ok (.integer k (k.wrap v.carried)) := by
  simp only [convert, Ty.isValueType, isNull_of_isNumber h, toIntegral_unchecked _ h]
  rfl

/-- What a checked conversion of a number to words makes of it. -/
theorem convert_checked {k : IntKind} {v : Value} (h : v.isNumber) :
    v.convert true (.integer k) =
      if v.truncated?.isSome then
        Outcome.ofOption .overflow ((k.ofInt? v.carried).map (.integer k))
      else .error .overflow := by
  simp only [convert, Ty.isValueType, isNull_of_isNumber h, toIntegral_checked _ h]
  cases v.truncated?.isSome <;> rfl

/-- The member that an unchecked conversion makes of a number has this number as a word of the
    enumeration, kept as a word of 64 bits with a sign. -/
theorem convert_enum_unchecked {e : EnumType} {k : IntKind} {v : Value}
    (he : e.underlying = .integer k) (h : v.isNumber) :
    v.convert false (.enum e) = .ok (.enum e (IntKind.int64.wrap (k.wrap v.carried).val)) := by
  simp only [convert, Ty.isValueType, isNull_of_isNumber h, toIntegral_unchecked _ h, he]
  rfl

/-- A number passes to a type with null as it does to the type without. -/
theorem convert_nullable {v : Value} {t : Ty} (checked : Bool) (h : v.isNumber) :
    v.convert checked (.nullable t) = v.convert checked t := by
  simp only [convert, isNull_of_isNumber h]
  rfl

/-- The outcomes of a conversion to words that show no other number than `v` without its
    fraction. -/
inductive Faithful (k : IntKind) (v : Value) : Outcome Value → Prop where
  | exact (w : k.Word) (same : v.truncated? = some w.val) : Faithful k v (.ok (.integer k w))
  | overflow : Faithful k v (.error .overflow)
  | invalidCast (source target : String) : Faithful k v (.error (.invalidCast source target))

theorem faithful_checked {k : IntKind} {v : Value} (h : v.isNumber) :
    Faithful k v (v.convert true (.integer k)) := by
  rw [convert_checked h]
  cases hn : v.truncated? with
  | none => exact .overflow
  | some n =>
      by_cases fits : k.Holds v.carried
      · have same : v.carried = n := (holds_carried hn).2 ((holds_carried hn).1.mp fits)
        simp only [Option.isSome_some, if_true, IntKind.ofInt?_of_holds fits]
        exact .exact _ (by rw [hn, IntKind.wrap_val fits, same])
      · simp only [Option.isSome_some, if_true, IntKind.ofInt?_of_not_holds fits]
        exact .overflow

/-- An unchecked conversion is faithful to the numbers that fit, and to no other. -/
theorem faithful_unchecked_iff {k : IntKind} {v : Value} (h : v.isNumber) :
    Faithful k v (v.convert false (.integer k)) ↔ ∃ n, v.truncated? = some n ∧ k.Holds n := by
  rw [convert_unchecked h]
  constructor
  · intro faithful
    cases faithful with
    | exact w same => exact ⟨_, same, (k.wrap v.carried).holds⟩
  · rintro ⟨n, hn, fits⟩
    have same : v.carried = n := (holds_carried hn).2 fits
    exact .exact _ (by rw [hn, same, IntKind.wrap_val fits])

/-- A number that conforms to a type of words is one of its words. -/
theorem word_of_conformsTo {k : IntKind} {v : Value} {t : Ty} (h : v.isNumber)
    (ht : t.nonNullable = .integer k) (hc : v.conformsTo t) : ∃ w, v = .integer k w := by
  have plain : v.conformsTo (.integer k) := by
    cases t with
    | predefined p =>
        cases ht
        exact hc
    | nullable inner =>
        cases ht
        simpa [conformsTo, isNull_of_isNumber h] using hc
    | _ => cases ht
  cases v with
  | integer l w =>
      simp [conformsTo, typeOf] at plain
      subst plain
      exact ⟨w, rfl⟩
  | char | enum | single | double | decimal => simp [conformsTo, typeOf] at plain
  | _ => cases h

end Value

namespace Operand

/-- The types of words of a kind: without null and with it. -/
inductive WordType (k : IntKind) : Ty → Prop where
  | plain : WordType k (.integer k)
  | nullable : WordType k (.nullable (.integer k))

namespace WordType

variable {k : IntKind} {t : Ty}

theorem nonNullable (h : WordType k t) : t.nonNullable = .integer k := by
  cases h <;> rfl

theorem isValueType (h : WordType k t) : t.isValueType := by
  cases h <;> rfl

theorem constructors (h : WordType k t) : Catalog.constructors t = [] := by
  cases h <;> rfl

theorem convert {v : Value} (checked : Bool) (h : WordType k t) (hn : v.isNumber) :
    v.convert checked t = v.convert checked (.integer k) := by
  cases h with
  | plain => rfl
  | nullable => exact Value.convert_nullable checked hn

end WordType

theorem construct_word {k t o o' pos} (ht : WordType k t)
    (h : construct t [o] pos = .ok o') : o.convert t pos = .ok o' := by
  simpa only [construct, ht.constructors, Overload.resolve, List.filterMap_nil] using h

private theorem isInterface_of_isValueType {t : Ty} (h : t.isValueType) :
    isInterface t = false := by
  cases t <;> first | rfl | cases h

/-- Different value types do not stand for one another. -/
theorem not_above {s t : Ty} (hs : s.isValueType) (ht : t.isValueType) (hne : s ≠ t) :
    (s.isAssignableFrom t || t.isAssignableFrom s || isInterface s || isInterface t) = false := by
  simp [Ty.isAssignableFrom_of_isValueType, hs, ht, hne, hne.symm, isInterface_of_isValueType]

/-- The forms that an accepted conversion takes. -/
theorem convert_forms {k t o o' pos} (ht : WordType k t) (h : o.convert t pos = .ok o') :
    (o.ty = t ∧ o' = o) ∨
    (o.ty.isValueType ∧ o.ty.nonNullable = .integer k ∧ o' = plain (.convert false o.expr t)) ∨
    (o.ty.isValueType ∧ o' = plain (.convert true o.expr t)) ∨
    (o.ty.isValueType = false ∧ o' = plain (.convert false o.expr t)) := by
  simp only [convert] at h
  split at h
  · rename_i same
    cases h
    exact .inl ⟨same, rfl⟩
  · rename_i hne
    split at h
    · rename_i near
      simp only [differInNull, Bool.and_eq_true, decide_eq_true_eq] at near
      cases h
      exact .inr (.inl ⟨near.1.1, near.2.2.trans ht.nonNullable, rfl⟩)
    · split at h
      · rename_i numbers
        simp only [Bool.and_eq_true] at numbers
        cases h
        exact .inr (.inr (.inl ⟨numbers.1.1.1, rfl⟩))
      · split at h
        · rename_i above
          cases h
          refine .inr (.inr (.inr ⟨?_, rfl⟩))
          cases hs : o.ty.isValueType with
          | false => rfl
          | true =>
              rw [not_above hs ht.isValueType hne] at above
              cases above
        · cases h

theorem eval_convert {host scope e checked t v} (h : Expr.eval host e scope = .ok v) :
    Expr.eval host (.convert checked e t) scope = v.convert checked t := by
  rw [Expr.eval, h]
  rfl

/-- Which conversions to words can show another number. Where the argument has a value type none
    can; where its type is the target's up to null, the value only has to be of that type. Where the
    argument has a reference type the number is wrapped, which is faithful just when it fits. -/
theorem construct_word_faithful {k t o o' pos host scope v} (ht : WordType k t)
    (hc : construct t [o] pos = .ok o') (hv : o.expr.eval host scope = .ok v)
    (hn : v.isNumber) :
    (o.ty.isValueType → (o.ty.nonNullable = .integer k → v.conformsTo o.ty) →
      Value.Faithful k v (o'.expr.eval host scope)) ∧
    (o.ty.isValueType = false →
      o'.expr.eval host scope = .ok (.integer k (k.wrap v.carried)) ∧
      (Value.Faithful k v (o'.expr.eval host scope) ↔
        ∃ n, v.truncated? = some n ∧ k.Holds n)) := by
  -- a word is carried as it is, so that neither form of conversion changes it
  have words : ∀ w, v = .integer k w → Value.Faithful k v (.ok (.integer k w)) := by
    rintro w rfl
    exact .exact w rfl
  rcases convert_forms ht (construct_word ht hc) with
    ⟨same, rfl⟩ | ⟨hs, near, rfl⟩ | ⟨hs, rfl⟩ | ⟨hs, rfl⟩
  · refine ⟨?_, ?_⟩
    · intro _ conforms
      have near : o'.ty.nonNullable = .integer k := same ▸ ht.nonNullable
      obtain ⟨w, rfl⟩ := Value.word_of_conformsTo hn near (conforms near)
      rw [hv]
      exact words w rfl
    · intro hs
      rw [same, ht.isValueType] at hs
      cases hs
  · refine ⟨?_, by simp [hs]⟩
    intro _ conforms
    obtain ⟨w, rfl⟩ := Value.word_of_conformsTo hn near (conforms near)
    simp only [plain]
    rw [eval_convert hv, ht.convert false hn, Value.convert_unchecked hn]
    simpa only [Value.carried, Value.toInt?, Option.getD_some, IntKind.wrap_word] using words w rfl
  · refine ⟨?_, by simp [hs]⟩
    intro _ _
    simp only [plain]
    rw [eval_convert hv, ht.convert true hn]
    exact Value.faithful_checked hn
  · refine ⟨by simp [hs], ?_⟩
    intro _
    simp only [plain]
    rw [eval_convert hv, ht.convert false hn]
    exact ⟨Value.convert_unchecked hn, Value.faithful_unchecked_iff hn⟩

private def anything : Operand := plain (.parameter ⟨0, "x", .object⟩)

private def threeHundred : Scope := [(⟨0, "x", .object⟩, .int32 300)]

private def noHost : Host := fun _ _ _ => .error "no host"

theorem construct_word_faithful_object :
    (anything.ty.isValueType → (anything.ty.nonNullable = .integer .byte →
        (Value.int32 300).conformsTo anything.ty) →
      Value.Faithful .byte (.int32 300)
        (Expr.eval noHost (.convert false anything.expr .byte) threeHundred)) ∧
    (anything.ty.isValueType = false →
      Expr.eval noHost (.convert false anything.expr .byte) threeHundred =
        .ok (.integer .byte (IntKind.byte.wrap (Value.int32 300).carried)) ∧
      (Value.Faithful .byte (.int32 300)
          (Expr.eval noHost (.convert false anything.expr .byte) threeHundred) ↔
        ∃ n, (Value.int32 300).truncated? = some n ∧ IntKind.byte.Holds n)) :=
  construct_word_faithful (o := anything) (t := .byte) .plain
    (show construct .byte [anything] 0 = .ok _ from rfl) rfl rfl

/-- Three hundred, passed as an `Object`, becomes the byte forty-four. -/
theorem construct_byte_wraps :
    construct .byte [anything] 0 = .ok (plain (.convert false anything.expr .byte)) ∧
      Expr.eval noHost anything.expr threeHundred = .ok (.int32 300) ∧
      Expr.eval noHost (.convert false anything.expr .byte) threeHundred =
        .ok (.integer .byte (IntKind.byte.wrap 44)) ∧
      ¬ Value.Faithful .byte (.int32 300)
        (Expr.eval noHost (.convert false anything.expr .byte) threeHundred) := by
  refine ⟨rfl, rfl, rfl, ?_⟩
  rw [show Expr.eval noHost (.convert false anything.expr .byte) threeHundred =
    .ok (.integer .byte (IntKind.byte.wrap 44)) from rfl]
  intro faithful
  cases faithful with
  | exact w same => exact absurd same (by decide)

end Operand
end TypedExpr
