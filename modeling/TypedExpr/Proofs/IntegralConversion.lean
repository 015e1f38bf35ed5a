import TypedExpr.Proofs.ExplicitConversion
import TypedExpr.Proofs.IntegerPromotion

/-! # Integral parts as words

Integers, characters, members of enumerations and decimals have an integral part that is known
exactly. A checked conversion to words gives this integer or overflows; an unchecked one gives the
word that differs from it by a multiple of the number of words. Where the type of the value goes to
the words by itself the integer is one of them, so that both conversions keep it.
-/

namespace TypedExpr

namespace Decimal

/-- The decimal without its fraction. -/
def HasWhole (d : Decimal) (whole : Int) : Prop :=
  ∃ fraction, Truncates d.signedCoefficient (10 ^ d.scale) whole fraction

theorem hasWhole_iff {d : Decimal} {n : Int} : d.HasWhole n ↔ n = d.truncate := by
  have unit : (10 : Int) ^ d.scale ≠ 0 := Int.ne_of_gt (Int.pow_pos (by decide))
  constructor
  · rintro ⟨fraction, h⟩
    exact h.unique.1
  · rintro rfl
    exact ⟨_, truncates_tdiv unit⟩

end Decimal

namespace Value

/-- A value that is an integer, or a decimal. -/
def isExact : Value → Bool
  | integer .. | char _ | enum .. | decimal _ => true
  | _ => false

/-- The integer that an exact value is, its fraction dropped. -/
inductive IntegralPart : Value → Int → Prop where
  | integer {k : IntKind} (w : k.Word) : IntegralPart (.integer k w) w.val
  | char (c : Char) : IntegralPart (.char c) c.toNat
  | enum (e : EnumType) (n : MemberNumber) : IntegralPart (.enum e n) n.val
  | decimal {d : Decimal} {n : Int} (h : d.HasWhole n) : IntegralPart (.decimal d) n

/-- The number of a member is one that its enumeration can count with. -/
def Numbered (v : Value) : Prop :=
  ∀ e n k, v = .enum e n → e.underlying = .integer k → k.Holds n.val

variable {v : Value} {n : Int} {k : IntKind}

theorem exists_integralPart (h : v.isExact) : ∃ n, v.IntegralPart n := by
  cases v with
  | integer k w => exact ⟨_, .integer w⟩
  | char c => exact ⟨_, .char c⟩
  | enum e n => exact ⟨_, .enum e n⟩
  | decimal d => exact ⟨_, .decimal (Decimal.hasWhole_iff.mpr rfl)⟩
  | _ => cases h

namespace IntegralPart

theorem isNumber (h : v.IntegralPart n) : v.isNumber := by
  cases h <;> rfl

theorem truncated? (h : v.IntegralPart n) : v.truncated? = some n := by
  cases h with
  | integer | char | enum => rfl
  | decimal h => rw [Decimal.hasWhole_iff.mp h]; rfl

theorem carried (h : v.IntegralPart n) : v.carried = n := by
  cases h with
  | integer | char | enum => rfl
  | decimal h => exact (Decimal.hasWhole_iff.mp h).symm

theorem convert_checked (h : v.IntegralPart n) (k : IntKind) :
    v.convert true (.integer k) = Outcome.ofOption .overflow ((k.ofInt? n).map (.integer k)) := by
  rw [Value.convert_checked h.isNumber, h.truncated?, h.carried]
  rfl

theorem convert_unchecked (h : v.IntegralPart n) (k : IntKind) :
    v.convert false (.integer k) = .ok (.integer k (k.wrap n)) := by
  rw [Value.convert_unchecked h.isNumber, h.carried]

/-- A value of a type that goes to words by itself is one of the words. -/
theorem holds (h : v.IntegralPart n) (goes : v.typeOf.convertsTo (.integer k))
    (numbered : v.Numbered) : k.Holds n := by
  cases h with
  | integer w => exact Operand.holds_of_convertsTo (w := w) rfl goes
  | enum e m =>
      have counts : e.underlying = .integer k := by
        simpa [typeOf, Ty.convertsTo, Ty.isValueType, Ty.isNullable, Ty.nonNullable, eq_comm]
          using goes
      exact numbered e m k rfl counts
  | char | decimal => cases k <;> cases goes

end IntegralPart

/-- An exact value converts to each kind of words as its integral part does: checked, to the word
    that it is or to an overflow, and unchecked to the word that is congruent to it. Where the
    conversion needs not be asked for, the two agree. -/
theorem convert_integral {v : Value} (h : v.isExact) :
    ∃ n, v.IntegralPart n ∧ ∀ k : IntKind,
      (∀ holds : k.Holds n,
        v.convert true (.integer k) = .ok (.integer k ⟨n, holds.1, holds.2⟩)) ∧
      (¬ k.Holds n → v.convert true (.integer k) = .error .overflow) ∧
      (∃ w : k.Word, w.val ≡ n [ZMOD k.size] ∧
        v.convert false (.integer k) = .ok (.integer k w)) ∧
      (v.typeOf.convertsTo (.integer k) → v.Numbered → ∃ w : k.Word, w.val = n ∧
        v.convert true (.integer k) = .ok (.integer k w) ∧
        v.convert false (.integer k) = .ok (.integer k w)) := by
  obtain ⟨n, part⟩ := exists_integralPart h
  refine ⟨n, part, fun k => ?_⟩
  have exact (holds : k.Holds n) : v.convert true (.integer k) = .ok (.integer k (k.wrap n)) := by
    rw [part.convert_checked, IntKind.ofInt?_of_holds holds]
    rfl
  refine ⟨fun holds => ?_, fun outside => ?_, ?_, fun goes numbered => ?_⟩
  · rw [exact holds, IntKind.Word.eq_of_val (b := ⟨n, holds.1, holds.2⟩) (IntKind.wrap_val holds)]
  · rw [part.convert_checked, IntKind.ofInt?_of_not_holds outside]
    rfl
  · exact ⟨k.wrap n, k.wrap_modEq n, part.convert_unchecked k⟩
  · have holds := part.holds goes numbered
    exact ⟨k.wrap n, IntKind.wrap_val holds, exact holds, part.convert_unchecked k⟩

private def debt : Decimal := ⟨true, 30075, 2, by decide, by decide⟩

/-- Three hundred and three quarters below zero: too low for a byte, and the word `212` if nobody
    checks. -/
theorem convert_integral_debt :
    (Value.decimal debt).isExact ∧
      (Value.decimal debt).convert true .int16 = .ok (.integer .int16 ⟨-300, by decide, by decide⟩) ∧
      (Value.decimal debt).convert true .byte = .error .overflow ∧
      (Value.decimal debt).convert false .byte =
        .ok (.integer .byte ⟨212, by decide, by decide⟩) := by
  obtain ⟨n, part, words⟩ := convert_integral (v := .decimal debt) rfl
  obtain rfl : -300 = n := Option.some.inj (Eq.trans (by decide) part.truncated?)
  obtain ⟨w, congruent, unchecked⟩ := (words .byte).2.2.1
  refine ⟨rfl, (words .int16).1 ⟨by decide, by decide⟩, (words .byte).2.1 ?_, ?_⟩
  · rintro ⟨low, -⟩
    exact absurd low (by decide)
  · rw [unchecked, IntKind.Word.eq_of_modEq (b := ⟨212, by decide, by decide⟩)
      (congruent.trans (by decide))]

end Value
end TypedExpr
