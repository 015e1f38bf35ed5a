import TypedExpr.Proofs.Conformance
import TypedExpr.Proofs.ExplicitConversion

/-! # Implicit conversions of values

Where a type goes to another one by itself, its values should pass without a check. Three kinds of
values do not: a text where a sequence of characters is asked for, an object without items of a
class that is taken for enumerable, and a character that becomes half of a surrogate pair when it
is cut to 16 bits. All others pass, and what they become conforms to the other type.
-/

namespace TypedExpr

mutual

/-- A class derives from whatever the classes that it derives from do. -/
theorem ClassType.derivesFrom_trans {b c : ClassType} (hc : b.derivesFrom c) :
    ∀ {a : ClassType}, a.derivesFrom b → a.derivesFrom c
  | ⟨i, n, base, interfaces, f, e, ps, fs, ms, cs, xs⟩, h => by
      simp only [ClassType.derivesFrom, Bool.or_eq_true, decide_eq_true_eq] at h
      rcases h with (rfl | h) | h
      · exact hc
      · simp [ClassType.derivesFrom, baseDerivesFrom_trans hc h]
      · simp [ClassType.derivesFrom, anyDerivesFrom_trans hc h]

private theorem baseDerivesFrom_trans {b c : ClassType} (hc : b.derivesFrom c) :
    ∀ {base : Option ClassType}, baseDerivesFrom base b → baseDerivesFrom base c
  | some _, h => ClassType.derivesFrom_trans hc h

private theorem anyDerivesFrom_trans {b c : ClassType} (hc : b.derivesFrom c) :
    ∀ {interfaces : List ClassType}, anyDerivesFrom interfaces b → anyDerivesFrom interfaces c
  | _ :: _, h => by
      simp only [anyDerivesFrom, Bool.or_eq_true] at h ⊢
      exact h.imp (ClassType.derivesFrom_trans hc) (anyDerivesFrom_trans hc)

end

namespace Value

/-- The values that a type takes in from a type that goes to it, and that still fail to pass, with
    the error that they end with. -/
inductive Stranded : Value → Ty → EvalError → Prop where
  /-- A text has characters, but is no sequence of them. -/
  | text {s} : Stranded (.string s) (.sequence .char) (.cast (.string s) (.sequence .char))
  /-- The class can be gone through, the object has nothing to go through. -/
  | itemless {id c members e} : Stranded (.hosted id c members none) (.sequence e)
      (.cast (.hosted id c members none) (.sequence e))
  /-- The lower 16 bits of the code are those of half a surrogate pair. -/
  | halved {c : Char} (h : 0xD800 ≤ c.toNat % 2 ^ 16 ∧ c.toNat % 2 ^ 16 ≤ 0xDFFF) :
      Stranded (.char c) .char .overflow
  | nullable {v t e} (h : Stranded v t e) : Stranded v (.nullable t) e

/-- An enumeration takes part that does not number its members by integers, as all are meant to. -/
inductive Misnumbered : Value → Ty → Prop where
  | member {e : EnumType} {n t} (h : ∀ k, e.underlying ≠ .integer k) : Misnumbered (.enum e n) t
  | target {v} {e : EnumType} (h : ∀ k, e.underlying ≠ .integer k) : Misnumbered v (.enum e)
  | nullable {v t} (h : Misnumbered v t) : Misnumbered v (.nullable t)

/-- The value converts to the type without being asked to, and then conforms to it. -/
def Passes (v : Value) (t : Ty) : Prop := ∃ w, v.convert false t = .ok w ∧ w.conformsTo t

variable {v : Value}

theorem convert_nullable_of_present {t : Ty} (hv : v.isNull = false) :
    v.convert false (.nullable t) = v.convert false t := by
  simp only [Value.convert, hv]
  rfl

theorem Passes.nullable {t : Ty} (hv : v.isNull = false) (h : v.Passes t) :
    v.Passes (.nullable t) := by
  obtain ⟨w, hw, conforms⟩ := h
  exact ⟨w, (convert_nullable_of_present hv).trans hw, conformsTo_of_nonNullable conforms⟩

/-! ## Characters -/

private theorem wrap_uint16 (n : Nat) : (IntKind.uint16.wrap n).val.toNat = n % 2 ^ 16 := by
  simp only [IntKind.wrap, IntKind.low, IntKind.size, IntKind.isSigned, Bool.false_eq_true, if_false]
  omega

/-- A character is cut to 16 bits, unless what is left is no character. -/
theorem convert_char (c : Char) : (Value.char c).convert false .char =
    if 0xD800 ≤ c.toNat % 2 ^ 16 ∧ c.toNat % 2 ^ 16 ≤ 0xDFFF then .error .overflow
    else .ok (.char (Char.ofNat (c.toNat % 2 ^ 16))) := by
  have cut : (Value.char c).convert false .char = ofCharCode c.toNat false := rfl
  have valid : (c.toNat % 2 ^ 16).isValidChar ↔
      ¬ (0xD800 ≤ c.toNat % 2 ^ 16 ∧ c.toNat % 2 ^ 16 ≤ 0xDFFF) := by
    simp only [Nat.isValidChar]
    omega
  rw [cut]
  simp only [ofCharCode, Bool.false_eq_true, if_false, pure_bind, wrap_uint16, valid, ite_not]
  rfl

theorem Stranded.isNull {t : Ty} {e : EvalError} (h : v.Stranded t e) : v.isNull = false := by
  induction h with
  | text | itemless | halved => rfl
  | nullable _ ih => exact ih

theorem Stranded.convert {t : Ty} {e : EvalError} (h : v.Stranded t e) :
    v.convert false t = .error e := by
  induction h with
  | text | itemless => rfl
  | halved h => rw [convert_char, if_pos h]
  | nullable h ih => rw [convert_nullable_of_present h.isNull, ih]

/-! ## References are passed as they are -/

theorem passes_reference {t : Ty} (ht : t.isValueType = false) (h : v.conformsTo t) :
    v.Passes t := by
  cases t with
  | nullable | enum => cases ht
  | _ =>
      refine ⟨v, ?_, h⟩
      cases hv : v.isNull <;> simp [Value.convert, passed, ht, hv, h]

/-- What conforms to a collection conforms to one of any other elements. -/
private theorem conformsTo_sequence {s e e' : Ty} (hs : s = .sequence e' ∨ s = .array e')
    (h : v.conformsTo s) : v.conformsTo (.sequence e) := by
  rcases hs with rfl | rfl
  · cases v <;> first | rfl | exact h
  · cases v <;> first | rfl | cases h

/-- What conforms to a class is null or an object of the host. -/
private theorem of_conformsTo_cls {c : ClassType} (h : v.conformsTo (.cls c)) :
    v = .null ∨ ∃ id d members items, v = .hosted id d members items ∧ d.derivesFrom c := by
  cases v with
  | null => exact .inl rfl
  | hosted id d members items => exact .inr ⟨id, d, members, items, rfl, h⟩
  | _ => cases h

/-- What conforms to texts is null or a text. -/
private theorem of_conformsTo_string (h : v.conformsTo .string) :
    v = .null ∨ ∃ s, v = .string s := by
  cases v with
  | null => exact .inl rfl
  | string s => exact .inr ⟨s, rfl⟩
  | _ => cases h

/-- A value of a type below a reference conforms to the reference, but for a text as a sequence and
    an object without items. -/
theorem conformsTo_of_isAssignableFrom {s t : Ty} (h : t.isAssignableFrom s)
    (hv : v.conformsTo s) (passed : ∀ e, ¬ v.Stranded t e) : v.conformsTo t := by
  by_cases same : t = s
  · exact same ▸ hv
  cases t with
  | predefined p =>
      cases p with
      | object => rfl
      | _ => exact absurd (of_decide_eq_true h) same
  | cls c =>
      cases s with
      | cls d =>
          rcases of_conformsTo_cls hv with rfl | ⟨id, d', members, items, rfl, derives⟩
          · rfl
          · exact ClassType.derivesFrom_trans h derives
      | _ => cases h
  | sequence e =>
      unfold Ty.isAssignableFrom at h
      simp only [same, decide_false, Bool.false_or] at h
      split at h
      · rcases of_conformsTo_string hv with rfl | ⟨str, rfl⟩
        · rfl
        · cases of_decide_eq_true h
          exact absurd .text (passed _)
      · cases s with
        | sequence e' => exact conformsTo_sequence (.inl rfl) hv
        | array e' => exact conformsTo_sequence (.inr rfl) hv
        | cls d =>
            rcases of_conformsTo_cls hv with rfl | ⟨id, d', members, items, rfl, -⟩
            · rfl
            · cases items with
              | none => exact absurd .itemless (passed _)
              | some items => rfl
        | _ => cases h
  | _ => exact absurd (of_decide_eq_true h) same

/-! ## Numbers and members of enumerations -/

theorem conformsTo_integer {k : IntKind} (w : k.Word) :
    (Value.integer k w).conformsTo (.integer k) := by
  simp [conformsTo, typeOf]

/-- Decimals have room for every word. -/
private theorem ofInt?_isSome {k : IntKind} (w : k.Word) : (Decimal.ofInt? w.val).isSome := by
  have short := w.holds.short
  have room : w.val.natAbs < 2 ^ 96 ∧ 0 ≤ 28 := by omega
  simp only [Decimal.ofInt?, Decimal.make?, dif_pos room, Option.isSome_some]

theorem passes_integer {k : IntKind} {w : k.Word} {t : Ty} (h : (Ty.integer k).widensTo t) :
    (Value.integer k w).Passes t := by
  cases t with
  | predefined p =>
      cases p with
      | integer l => exact ⟨_, convert_unchecked rfl, conformsTo_integer _⟩
      | single => exact ⟨_, rfl, rfl⟩
      | double => exact ⟨_, rfl, rfl⟩
      | decimal =>
          obtain ⟨d, hd⟩ := Option.isSome_iff_exists.mp (ofInt?_isSome w)
          refine ⟨.decimal d, ?_, rfl⟩
          simp [Value.convert, Ty.isValueType, isNull, toDecimal?, toInt?, hd, Outcome.ofOption]
      | _ => cases h
  | _ => cases h

/-- A number becomes a member of an enumeration that numbers its members by integers. -/
theorem passes_enum {e : EnumType} {k : IntKind} (hv : v.isNumber) (he : e.underlying = .integer k) :
    v.Passes (.enum e) :=
  ⟨_, convert_enum_unchecked he hv, by simp [conformsTo]⟩

theorem Misnumbered.underlying {e : EnumType} {t : Ty} {n : MemberNumber}
    (h : ¬ (Value.enum e n).Misnumbered t) : ∃ k, e.underlying = .integer k := by
  by_contra none
  exact h (.member fun k hk => none ⟨k, hk⟩)

/-- A value passes where its own type is asked for. -/
theorem passes_self : ∀ {t : Ty}, v.conformsTo t → (∀ e, ¬ v.Stranded t e) →
    ¬ v.Misnumbered t → v.Passes t
  | .nullable inner, hv, passed, numbered => by
      cases null : v.isNull with
      | true =>
          cases v <;> cases null
          exact ⟨.null, rfl, rfl⟩
      | false =>
          refine .nullable null (passes_self ?_ ?_ ?_)
          · simpa [conformsTo, null] using hv
          · exact fun e h => passed e (.nullable h)
          · exact fun h => numbered (.nullable h)
  | .enum e, hv, _, numbered => by
      cases v with
      | enum e' n =>
          cases of_decide_eq_true hv
          obtain ⟨k, hk⟩ := Misnumbered.underlying numbered
          exact passes_enum rfl hk
      | _ => cases hv
  | .predefined p, hv, passed, _ => by
      have conforms : v.Conforms False (.predefined p) := .of_predefined hv
      cases p with
      | object | string | math | convert => exact passes_reference rfl hv
      | integer k =>
          obtain ⟨w, rfl⟩ := conforms.integer
          exact passes_integer (by simp [Ty.widensTo, IntKind.fits])
      | char =>
          obtain ⟨c, rfl⟩ := conforms.char
          by_cases halved : 0xD800 ≤ c.toNat % 2 ^ 16 ∧ c.toNat % 2 ^ 16 ≤ 0xDFFF
          · exact absurd (.halved halved) (passed _)
          · exact ⟨_, (convert_char c).trans (if_neg halved), rfl⟩
      | single =>
          obtain ⟨x, rfl⟩ := conforms.single
          exact ⟨_, rfl, rfl⟩
      | double =>
          obtain ⟨x, rfl⟩ := conforms.double
          exact ⟨_, rfl, rfl⟩
      | decimal =>
          obtain ⟨d, rfl⟩ := conforms.decimal
          exact ⟨_, rfl, rfl⟩
      | boolean | dateTime | timeSpan | guid =>
          -- these are passed on as they are
          refine ⟨v, ?_, hv⟩
          cases v <;> first | rfl | cases hv
  | .record _, hv, _, _ | .cls _, hv, _, _ | .sequence _, hv, _, _ | .array _, hv, _, _
  | .lambda .., hv, _, _ => passes_reference rfl hv

/-! ## From one type to another -/

/-- How a value type goes to another one, their null apart. -/
inductive Goes : Ty → Ty → Prop where
  | same {t} : Goes t t
  | toNumber {e : EnumType} : Goes (.enum e) e.underlying
  | toMember {e : EnumType} : Goes e.underlying (.enum e)
  | words {k t} (h : (Ty.integer k).widensTo t) : Goes (.integer k) t
  | single : Goes .single .double

private theorem goes_of_widensTo {s t : Ty} (h : s.widensTo t) : Goes s t := by
  unfold Ty.widensTo at h
  split at h
  · exact .words (by simpa only [Ty.widensTo] using h)
  · rcases Bool.or_eq_true _ _ ▸ h with h | h
    · cases of_decide_eq_true h
      exact .same
    · cases of_decide_eq_true h
      exact .single
  · cases of_decide_eq_true h
    exact .same

/-- The ways in which a type goes to another one. -/
theorem convertsTo_forms {s t : Ty} (h : s.convertsTo t) :
    s = t ∨ (t.isValueType = false ∧ t.isAssignableFrom s) ∨
      ((s.isNullable → t.isNullable) ∧ Goes s.nonNullable t.nonNullable) := by
  simp only [Ty.convertsTo] at h
  split at h
  · exact .inl ‹_›
  · split at h
    · rename_i reference
      exact .inr (.inl ⟨by simpa using reference, h⟩)
    · split at h
      · cases h
      · rename_i null
        refine .inr (.inr ⟨by simpa using null, ?_⟩)
        split at h
        · rename_i he he'
          rw [he, he', of_decide_eq_true h]
          exact .same
        · rename_i he _
          rw [he, of_decide_eq_true h]
          exact .toNumber
        · rename_i he _
          rw [he, of_decide_eq_true h]
          exact .toMember
        · exact goes_of_widensTo h

private theorem passes_of_goes {s t : Ty} (h : Goes s t) (hv : v.conformsTo s)
    (passed : ∀ e, ¬ v.Stranded t e) (numbered : ¬ v.Misnumbered t) : v.Passes t := by
  cases h with
  | same => exact passes_self hv passed numbered
  | toNumber =>
      cases v with
      | enum e' n =>
          cases of_decide_eq_true hv
          obtain ⟨k, hk⟩ := Misnumbered.underlying numbered
          rw [hk]
          exact ⟨_, convert_unchecked rfl, conformsTo_integer _⟩
      | _ => cases hv
  | toMember =>
      rename_i e
      have numbers : ∃ k, e.underlying = .integer k := by
        by_contra none
        exact numbered (.target fun k hk => none ⟨k, hk⟩)
      obtain ⟨k, hk⟩ := numbers
      rw [hk] at hv
      obtain ⟨w, rfl⟩ := (Conforms.of_predefined hv : v.Conforms False _).integer
      exact passes_enum rfl hk
  | words h =>
      obtain ⟨w, rfl⟩ := (Conforms.of_predefined hv : v.Conforms False _).integer
      exact passes_integer h
  | single =>
      obtain ⟨x, rfl⟩ := (Conforms.of_predefined hv : v.Conforms False _).single
      exact ⟨_, rfl, rfl⟩

/-- What conforms to a type conforms to it without its null, if it is not null. -/
theorem conformsTo_nonNullable {s : Ty} (present : v.isNull = false)
    (hv : v.conformsTo s) : v.conformsTo s.nonNullable := by
  cases s with
  | nullable inner =>
      simp only [conformsTo, present, Bool.false_or] at hv
      exact hv
  | _ => exact hv

/-- Which values of a type do not pass to a type that it goes to. The stranded ones end with their
    error; all others become a value of the other type, as long as enumerations number their
    members by integers. -/
theorem convert_implicit {s t : Ty} (h : s.convertsTo t) (hv : v.conformsTo s) :
    (∀ e, v.Stranded t e → v.convert false t = .error e) ∧
      ((∀ e, ¬ v.Stranded t e) → ¬ v.Misnumbered t →
        ∃ w, v.convert false t = .ok w ∧ w.conformsTo t) := by
  refine ⟨fun e stranded => stranded.convert, fun passed numbered => ?_⟩
  rcases convertsTo_forms h with rfl | ⟨reference, above⟩ | ⟨null, goes⟩
  · exact passes_self hv passed numbered
  · exact passes_reference reference (conformsTo_of_isAssignableFrom above hv passed)
  · cases nullable : t.isNullable with
    | false =>
        -- neither type has null, so that the value is none
        have same : s.nonNullable = s ∧ t.nonNullable = t := by
          rw [nullable] at null
          cases s <;> cases t <;> simp_all [Ty.isNullable, Ty.nonNullable]
        rw [same.1, same.2] at goes
        exact passes_of_goes goes hv passed numbered
    | true =>
        cases t with
        | nullable inner =>
            cases present : v.isNull with
            | true =>
                cases v <;> cases present
                exact ⟨.null, rfl, rfl⟩
            | false =>
                refine Passes.nullable present (passes_of_goes goes ?_ ?_ ?_)
                · exact conformsTo_nonNullable present hv
                · exact fun e stranded => passed e (.nullable stranded)
                · exact fun mis => numbered (.nullable mis)
        | _ => cases nullable

private def color : EnumType := ⟨1, "Color", .byte, [("Red", IntKind.int64.wrap 0)]⟩

private def red : Value := .enum color (IntKind.int64.wrap 0)

/-- A color passes as the number that it has, with null or without. -/
theorem convert_implicit_color :
    (Ty.nullable (.enum color)).convertsTo (.nullable .byte) ∧
      red.conformsTo (.nullable (.enum color)) ∧
      ∃ w, red.convert false (.nullable .byte) = .ok w ∧ w.conformsTo (.nullable .byte) := by
  have goes : (Ty.nullable (.enum color)).convertsTo (.nullable .byte) := by decide
  have conforms : red.conformsTo (.nullable (.enum color)) := by decide
  refine ⟨goes, conforms, (convert_implicit goes conforms).2 ?_ ?_⟩
  · intro e stranded
    cases stranded with
    | nullable stranded => cases stranded
  · intro mis
    cases mis with
    | member h => exact h .byte rfl
    | nullable mis =>
        cases mis with
        | member h => exact h .byte rfl

/-- A character whose last sixteen bits are those of half a surrogate pair. -/
private def signWriting : Char := Char.ofNat 0x1D800

/-- The text `ab` goes to a sequence of characters, and is refused as one. A character is refused
    as a character, its own type. -/
theorem convert_implicit_strands :
    (Ty.string.convertsTo (.sequence .char) ∧ (Value.string "ab").conformsTo .string ∧
      (Value.string "ab").convert false (.sequence .char) =
        .error (.invalidCast "String" "IEnumerable<Char>")) ∧
    (Ty.char.convertsTo .char ∧ (Value.char signWriting).conformsTo .char ∧
      (Value.char signWriting).convert false .char = .error .overflow) :=
  ⟨⟨by decide, by decide, Stranded.convert .text⟩,
    ⟨by decide, by decide, Stranded.convert (.halved (by decide))⟩⟩

end Value
end TypedExpr
