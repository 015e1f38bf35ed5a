import TypedExpr.Proofs.LiteralMarks
import TypedExpr.Proofs.Types

/-! # Integer literals in other types

An integer literal has the smallest type that holds it until its place asks for another one. Then
its text is read again, and the literal becomes a constant of the type asked for just when it is
within the bounds of that type. What is out of bounds there does not go there by itself either, so
that no literal is ever converted.
-/

namespace TypedExpr

namespace Read

variable {cs : List Char} {n : Int}

/-- A minus sign makes no positive number. -/
theorem int?_nonpos (read : int? cs = some n) (signed : cs.head? = some '-') : n ≤ 0 := by
  obtain ⟨digits, rfl⟩ := List.head?_eq_some_iff.mp signed
  obtain ⟨_, whole, rfl⟩ := Option.map_eq_some_iff.mp read
  obtain ⟨m, -, value⟩ := Option.bind_eq_some_iff.mp whole
  cases value
  omega

end Read

/-- A text that is read as an integer is read as the word of each kind that holds the integer. For
kinds without negative ones a zero must not have a minus sign. -/
theorem IntKind.ofText?_of_int? {cs : List Char} {n : Int} (read : Read.int? cs = some n)
    (signed : cs.head? = some '-' → n ≠ 0) (k : IntKind) : k.ofText? cs = k.ofInt? n := by
  by_cases holds : k.Holds n
  · have sign : cs.head? = some '-' → k.low < 0 := by
      intro minus
      have nonpos := Read.int?_nonpos read minus
      have nonzero := signed minus
      have low := holds.1
      omega
    rw [ofInt?_of_holds holds]
    refine ofText?_iff.mpr ⟨?_, sign⟩
    rw [wrap_val holds, read]
  · rw [ofInt?_of_not_holds holds, Option.eq_none_iff_forall_ne_some]
    intro w word
    obtain ⟨same, -⟩ := ofText?_iff.mp word
    rw [read, Option.some.injEq] at same
    exact holds (same ▸ w.holds)

namespace Operand

variable {j k : IntKind} {text : String} {n : Int} {target : Ty}

/-- The kinds that an integer literal can have. -/
def literalKinds : List IntKind := [.int32, .uint32, .int64, .uint64]

theorem asLiteralOf?_integer (hj : j ∈ literalKinds) {w : j.Word}
    (ht : target.nonNullable = .integer k) :
    (literal (.integer j w) text).asLiteralOf? target =
      (k.ofText? (Text.trimChars text.toList)).map (.integer k) := by
  have again : reread? text (.integer j) (.integer k) = Value.ofNumber? text (.integer k) := by
    simp only [literalKinds, List.mem_cons, List.not_mem_nil, or_false] at hj
    rcases hj with rfl | rfl | rfl | rfl <;> rfl
  change reread? text (.integer j) target.nonNullable = _
  rw [ht, again]
  rfl

/-- Integers only go to kinds that hold them. -/
theorem holds_of_convertsTo {w : j.Word} (ht : target.nonNullable = .integer k)
    (h : (Ty.integer j).convertsTo target) : k.Holds w.val := by
  have fits : j.fits k := by
    rcases Ty.eq_of_nonNullable ht with rfl | rfl
    · simp only [Ty.convertsTo] at h
      split at h
      · rename_i same
        cases same
        simp [IntKind.fits]
      · simpa [Ty.isValueType, Ty.isNullable, Ty.nonNullable, Ty.widensTo] using h
    · simpa [Ty.convertsTo, Ty.isValueType, Ty.isNullable, Ty.nonNullable, Ty.widensTo] using h
  simp only [IntKind.fits, Bool.and_eq_true, decide_eq_true_eq] at fits
  exact ⟨Int.le_trans fits.1 w.low_le, Int.le_trans w.le_high fits.2⟩

/-- Whatever kind it has, a literal becomes the word of another kind that its integer is. -/
theorem promote?_literal (hj : j ∈ literalKinds) {w : j.Word}
    (read : Read.int? text.toList = some w.val)
    (signed : text.toList.head? = some '-' → w.val ≠ 0)
    (ht : target ∈ [Ty.integer k, .nullable (.integer k)]) (exact : Bool) :
    ((literal (.integer j w) text).promote? target exact).map (·.expr) =
      (k.ofInt? w.val).map fun v => .constant (.integer k v) target := by
  have inner : target.nonNullable = .integer k := by
    simp only [List.mem_cons, List.not_mem_nil, or_false] at ht
    rcases ht with rfl | rfl <;> rfl
  rw [promote?]
  split
  · rename_i same
    change Ty.integer j = target at same
    subst same
    cases inner
    rw [IntKind.ofInt?_of_holds w.holds, IntKind.wrap_word]
    rfl
  · have again : (literal (.integer j w) text).asLiteralOf? target =
        (k.ofInt? w.val).map (.integer k) := by
      rw [asLiteralOf?_integer hj inner, Text.trimChars_of_not_blank (Read.int?_not_blank read),
        IntKind.ofText?_of_int? read signed]
    rw [again]
    by_cases holds : k.Holds w.val
    · rw [IntKind.ofInt?_of_holds holds]
      rfl
    · have stays : ((literal (.integer j w) text).ty.convertsTo target) = false := by
        rw [Bool.eq_false_iff]
        exact fun h => holds (holds_of_convertsTo inner h)
      rw [IntKind.ofInt?_of_not_holds holds]
      simp [stays]

/-- An integer literal goes to a type of integers just when it is within its bounds, and then it is
a constant of that type. Of which kind it was before does not matter. -/
theorem promote?_integer {t : Token} {o : Operand} (made : ofInteger t = .ok o)
    (value : Read.int? t.text.toList = some n)
    (signed : t.text.toList.head? = some '-' → n ≠ 0) :
    (∃ j ∈ literalKinds, ∃ w : j.Word, w.val = n ∧ o = literal (.integer j w) t.text) ∧
    ∀ k : IntKind, ∀ target ∈ [Ty.integer k, .nullable (.integer k)], ∀ exact : Bool,
      ((∃ o', o.promote? target exact = some o') ↔ k.Holds n) ∧
      (∀ o', o.promote? target exact = some o' →
        ∃ v : k.Word, v.val = n ∧ o'.expr = .constant (.integer k v) target) ∧
      ∀ j ∈ literalKinds, ∀ w : j.Word, w.val = n →
        ((literal (.integer j w) t.text).promote? target exact).map (·.expr) =
          (o.promote? target exact).map (·.expr) := by
  obtain ⟨j, hj, w, rfl, word⟩ := ofInteger_some made
  rw [Text.trimChars_of_not_blank (Read.int?_not_blank value)] at word
  obtain ⟨same, -⟩ := IntKind.ofText?_iff.mp word
  obtain rfl : n = w.val := Option.some.inj (value.symm.trans same)
  refine ⟨⟨j, hj, w, rfl, rfl⟩, fun k target ht exact => ?_⟩
  have becomes := promote?_literal hj value signed ht exact
  refine ⟨⟨?_, ?_⟩, ?_, ?_⟩
  · rintro ⟨o', promoted⟩
    by_contra outside
    rw [promoted, IntKind.ofInt?_of_not_holds outside] at becomes
    cases becomes
  · intro holds
    rw [IntKind.ofInt?_of_holds holds] at becomes
    obtain ⟨o', promoted, -⟩ := Option.map_eq_some_iff.mp becomes
    exact ⟨o', promoted⟩
  · intro o' promoted
    rw [promoted] at becomes
    obtain ⟨v, word, constant⟩ := Option.map_eq_some_iff.mp becomes.symm
    exact ⟨v, IntKind.val_of_ofInt? word, constant.symm⟩
  · intro i hi v same
    rw [becomes, promote?_literal hi (same ▸ value) (same ▸ signed) ht exact, same]

/-- The least integer of a byte with a sign goes to such bytes, and to no bytes without one. -/
theorem promote?_integer_least :
    let o := literal (.int32 (-128)) "-128"
    ofInteger ⟨.integerLiteral, "-128", 0⟩ = .ok o ∧ ∀ exact : Bool,
      (∃ o', o.promote? .sbyte exact = some o') ∧
      ∀ o', o.promote? (.nullable .byte) exact ≠ some o' := by
  intro o
  have made : ofInteger ⟨.integerLiteral, "-128", 0⟩ = .ok o := rfl
  obtain ⟨-, goes⟩ := promote?_integer made (n := -128) (by decide) (by decide)
  refine ⟨made, fun exact => ⟨?_, fun o' promoted => ?_⟩⟩
  · exact (goes .sbyte .sbyte (by simp) exact).1.mpr ⟨by decide, by decide⟩
  · have holds := (goes .byte (.nullable .byte) (by simp) exact).1.mp ⟨o', promoted⟩
    exact absurd holds.1 (by decide)

/-- A zero with a minus sign is no byte, as it is written. -/
example : (literal (.int32 0) "-0").asLiteralOf? .byte = none := rfl

end Operand
end TypedExpr
