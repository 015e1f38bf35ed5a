import TypedExpr.Eval.Members
import TypedExpr.Proofs.NormalForms

/-! # Equality of values and their hash codes

Two values are equal just when they have one canonical form, in which a binary number is its sort
key, a decimal has no scale, and an object of the host is its number. The hash code of a value, with
other forms for numbers, can be told from its canonical form, so that equal values have one hash
code.
-/

namespace TypedExpr

/-- What a value is as far as equality can tell. -/
inductive Canonical where
  | null
  | boolean (b : Bool)
  | char (c : Char)
  | string (s : String)
  | integer (k : IntKind) (n : Int)
  /-- A number by its sort key, which no NaN has. -/
  | single (key : Option Int)
  | double (key : Option Int)
  /-- A decimal in units of the smallest scale. -/
  | decimal (units : Int)
  | dateTime (t : DateTime)
  | timeSpan (s : TimeSpan)
  | guid (g : Guid)
  | enum (type : EnumType) (n : MemberNumber)
  | record (type : RecordType) (fields : List Canonical)
  | sequence (items : List Canonical)
  | hosted (id : Nat)

namespace Value

mutual

def canonical : Value → Canonical
  | null => .null
  | boolean b => .boolean b
  | char c => .char c
  | string s => .string s
  | integer k n => .integer k n.val
  | single x => .single (Binary.float32Key? x)
  | double x => .double (Binary.floatKey? x)
  | decimal d => .decimal d.units
  | dateTime t => .dateTime t
  | timeSpan s => .timeSpan s
  | guid g => .guid g
  | enum e n => .enum e n
  | record r fields => .record r (canonicals fields)
  | sequence items => .sequence (canonicals items)
  | hosted i .. => .hosted i

def canonicals : List Value → List Canonical
  | [] => []
  | v :: vs => v.canonical :: canonicals vs

end

/-! ## Equality as agreement of canonical forms -/

mutual

theorem same_iff : ∀ a b : Value, a.same b = true ↔ a.canonical = b.canonical
  | null, b | boolean _, b | char _, b | string _, b | integer .., b | single _, b | double _, b
  | decimal _, b | dateTime _, b | timeSpan _, b | guid _, b | enum .., b | hosted .., b => by
      cases b <;> simp [same, canonical]
  | record _ as, b => by cases b <;> simp [same, canonical, sameAll_iff as]
  | sequence as, b => by cases b <;> simp [same, canonical, sameAll_iff as]

private theorem sameAll_iff : ∀ as bs : List Value,
    sameAll as bs = true ↔ canonicals as = canonicals bs
  | [], bs => by cases bs <;> simp [sameAll, canonicals]
  | a :: as, bs => by cases bs <;> simp [sameAll, canonicals, same_iff a, sameAll_iff as]

end

theorem equivalence : Equivalence fun a b : Value => (a == b) = true where
  refl a := (same_iff a a).mpr rfl
  symm h := (same_iff _ _).mpr ((same_iff _ _).mp h).symm
  trans h h' := (same_iff _ _).mpr (((same_iff _ _).mp h).trans ((same_iff _ _).mp h'))

/-! ## Hash codes of canonical forms -/

mutual

/-- The hash code can be told from the canonical form. -/
theorem hashCode_of_canonical : ∀ a b : Value, a.canonical = b.canonical → a.hashCode = b.hashCode
  | null, b, h | boolean _, b, h | char _, b, h | string _, b, h | integer .., b, h
  | dateTime _, b, h | timeSpan _, b, h | guid _, b, h | enum .., b, h | hosted .., b, h => by
      cases b <;> simp_all [canonical, hashCode]
  | single _, b, h => by
      cases b with
      | single _ => rw [hashCode, hashCode, Binary.single_canonicalBits (Canonical.single.inj h)]
      | _ => cases h
  | double _, b, h => by
      cases b with
      | double _ => rw [hashCode, hashCode, Binary.double_canonicalBits (Canonical.double.inj h)]
      | _ => cases h
  | decimal _, b, h => by
      cases b with
      | decimal _ => rw [hashCode, hashCode, Decimal.normalized_of_units (Canonical.decimal.inj h)]
      | _ => cases h
  | record _ as, b, h => by
      cases b with
      | record _ bs =>
          rw [hashCode, hashCode, hashOfFields_of_canonical as bs (Canonical.record.inj h).2]
      | _ => cases h
  | sequence as, b, h => by
      cases b with
      | sequence bs =>
          rw [hashCode, hashCode, hashOfItems_of_canonical as bs (Canonical.sequence.inj h)]
      | _ => cases h

private theorem hashOfFields_of_canonical : ∀ as bs : List Value,
    canonicals as = canonicals bs → hashOfFields as = hashOfFields bs
  | [], bs, h => by
      cases bs with
      | nil => rfl
      | cons => cases h
  | a :: as, bs, h => by
      cases bs with
      | nil => cases h
      | cons b bs =>
          obtain ⟨head, tail⟩ := List.cons.inj h
          rw [hashOfFields, hashOfFields, hashCode_of_canonical a b head,
            hashOfFields_of_canonical as bs tail]

private theorem hashOfItems_of_canonical : ∀ as bs : List Value,
    canonicals as = canonicals bs → hashOfItems as = hashOfItems bs
  | [], bs, h => by
      cases bs with
      | nil => rfl
      | cons => cases h
  | a :: as, bs, h => by
      cases bs with
      | nil => cases h
      | cons b bs =>
          obtain ⟨head, tail⟩ := List.cons.inj h
          rw [hashOfItems, hashOfItems, hashCode_of_canonical a b head,
            hashOfItems_of_canonical as bs tail]

end

theorem hashCode_eq {a b : Value} (h : a == b) : a.hashCode = b.hashCode :=
  hashCode_of_canonical a b ((same_iff a b).mp h)

/-! ## Equality that can be hashed -/

/-- Equality is an equivalence relation that hash codes respect: those of values, those that
`GetHashCode` returns where `Equals` says yes, and those of records. -/
theorem equality_hashable :
    Equivalence (fun a b : Value => (a == b) = true) ∧
      (∀ a b : Value, a == b → a.hashCode = b.hashCode) ∧
      (∀ a b : Value, ObjectMethod.equals.call a [b] = .ok (.boolean true) →
        ObjectMethod.hashCode.call a [] = ObjectMethod.hashCode.call b []) ∧
      ∀ q r : Record, q.toValue == r.toValue → q.hashCode = r.hashCode := by
  refine ⟨equivalence, fun _ _ => hashCode_eq, fun a b h => ?_, fun q r h => ?_⟩
  · have answer : a.same b = true := by
      simpa [ObjectMethod.call, argument, Outcome.ofOption, pure, Except.pure, bind, Except.bind]
        using h
    simp only [ObjectMethod.call, hashCode_eq answer]
  · have fields : canonicals q.fields = canonicals r.fields :=
      (Canonical.record.inj ((same_iff _ _).mp h)).2
    exact hashOfFields_of_canonical _ _ fields

/-- Lists of other scales, other zeros and other things that are no number. -/
theorem equality_hashable_scales :
    let a : Value := .sequence [.decimal ⟨false, 150, 2, by decide, by decide⟩,
      .sequence [.double (-0.0), .single (0 / 0)]]
    let b : Value := .sequence [.decimal ⟨false, 15, 1, by decide, by decide⟩,
      .sequence [.double 0.0, .single (-(0 / 0))]]
    a == b ∧ b == a ∧ a.hashCode = b.hashCode := by
  intro a b
  obtain ⟨equivalence, hashes, -, -⟩ := equality_hashable
  have equal : a == b := by decide +kernel
  exact ⟨equal, equivalence.symm equal, hashes a b equal⟩

end Value
end TypedExpr
