import TypedExpr.Proofs.Integer
import TypedExpr.Proofs.SafeOperators

/-! # Arithmetic of words

Sums, differences and products of words are those of integers, up to a multiple of the number of
words. Words are divided as integers are, toward zero, and what a division leaves is on the side of
the dividend. One quotient of words is no word, that of the least word and minus one.
-/

namespace TypedExpr

namespace IntKind

variable {k : IntKind} {a b : Int}

theorem Holds.tmod (ha : k.Holds a) (hb : b ≠ 0) : k.Holds (a.tmod b) := by
  have parts := truncates_tdiv (a := a) hb
  refine ha.shrink ?_ parts.nonneg parts.nonpos
  rw [Int.natAbs_tmod]
  exact Nat.mod_le _ _

/-- A quotient of words is a word, with one exception. -/
theorem Holds.tdiv (ha : k.Holds a) (hb : k.Holds b) (nonzero : b ≠ 0)
    (fits : ¬ (a = k.low ∧ b = -1)) : k.Holds (a.tdiv b) := by
  have bounds := k.low_eq
  have magnitude : (a.tdiv b).natAbs = a.natAbs / b.natAbs := Int.natAbs_tdiv a b
  unfold Holds at *
  by_cases unit : b.natAbs = 1
  · rcases Int.natAbs_eq_iff.mp unit with rfl | rfl
    · rw [Nat.cast_one, Int.tdiv_one]
      exact ha
    · rw [Nat.cast_one, Int.tdiv_neg, Int.tdiv_one]
      omega
  · -- any other divisor leaves at most half of the dividend, which is well within the bounds
    have half : a.natAbs / b.natAbs ≤ a.natAbs / 2 := Nat.div_le_div_left (by omega) (by decide)
    have nonneg : 0 ≤ a → 0 ≤ b → 0 ≤ a.tdiv b := Int.tdiv_nonneg
    omega

end IntKind

namespace BinaryOp

/-- What operators make of two words of one kind, and of null. -/
structure ComputesWords (k : IntKind) : Prop where
  sum : ∀ a b : k.Word, ∃ w : k.Word, w.val ≡ a.val + b.val [ZMOD k.size] ∧
    add.arithmetic (.integer k a) (.integer k b) = .ok (.integer k w)
  difference : ∀ a b : k.Word, ∃ w : k.Word, w.val ≡ a.val - b.val [ZMOD k.size] ∧
    subtract.arithmetic (.integer k a) (.integer k b) = .ok (.integer k w)
  product : ∀ a b : k.Word, ∃ w : k.Word, w.val ≡ a.val * b.val [ZMOD k.size] ∧
    multiply.arithmetic (.integer k a) (.integer k b) = .ok (.integer k w)
  byZero : ∀ a b : k.Word, b.val = 0 →
    divide.arithmetic (.integer k a) (.integer k b) = .error .divideByZero ∧
      modulo.arithmetic (.integer k a) (.integer k b) = .error .divideByZero
  /-- The quotient times the divisor, and what is left, make up the dividend again, with the
      operators themselves as well. -/
  quotient : ∀ a b : k.Word, b.val ≠ 0 → ¬ (a.val = k.low ∧ b.val = -1) →
    ∃ q r : k.Word, Truncates a.val b.val q.val r.val ∧
      divide.arithmetic (.integer k a) (.integer k b) = .ok (.integer k q) ∧
      modulo.arithmetic (.integer k a) (.integer k b) = .ok (.integer k r) ∧
      ∃ p, multiply.arithmetic (.integer k q) (.integer k b) = .ok p ∧
        add.arithmetic p (.integer k r) = .ok (.integer k a)
  leastByMinusOne : ∀ a b : k.Word, a.val = k.low → b.val = -1 →
    divide.arithmetic (.integer k a) (.integer k b) = .error .overflow ∧
      ∃ r : k.Word, r.val = 0 ∧
        modulo.arithmetic (.integer k a) (.integer k b) = .ok (.integer k r)
  null : ∀ (op : BinaryOp) (v : Value),
    op.arithmetic .null v = .ok .null ∧ op.arithmetic v .null = .ok .null

variable {k : IntKind}

theorem arithmetic_integer (wide : isWide k) (op : BinaryOp) (a b : k.Word) :
    op.arithmetic (.integer k a) (.integer k b) = op.onWords k a.val b.val := by
  simp only [arithmetic, wide, and_self, if_true]

theorem onWords_divide {a b : k.Word} (nonzero : b.val ≠ 0)
    (fits : ¬ (a.val = k.low ∧ b.val = -1)) :
    divide.onWords k a.val b.val = .ok (.integer k (k.wrap (a.val.tdiv b.val))) := by
  have holds := a.holds.tdiv b.holds nonzero fits
  simp only [onWords, if_neg nonzero, IntKind.ofInt?_of_holds holds]
  rfl

theorem onWords_modulo {a b : k.Word} (nonzero : b.val ≠ 0) :
    modulo.onWords k a.val b.val = .ok (.integer k (k.wrap (a.val.tmod b.val))) :=
  if_neg nonzero

/-- A dividend is made up again from its parts, as these are wrapped. -/
theorem wrap_whole {a q r p : k.Word} {b : Int} (parts : Truncates a.val b q.val r.val)
    (product : p.val ≡ q.val * b [ZMOD k.size]) : k.wrap (p.val + r.val) = a := by
  have whole : p.val + r.val ≡ a.val [ZMOD k.size] := parts.whole ▸ product.add_right r.val
  rw [IntKind.wrap_congr whole, IntKind.wrap_word]

/-- Minus one leaves nothing over from the least word, and its quotient is one too high. -/
theorem onWords_least {a b : k.Word} (least : a.val = k.low) (minusOne : b.val = -1) :
    divide.onWords k a.val b.val = .error .overflow ∧
      modulo.onWords k a.val b.val = .ok (.integer k (k.wrap 0)) := by
  have signed : ¬ k.Holds (-k.low) := by
    have bounds := k.low_eq
    have low := b.low_le
    unfold IntKind.Holds
    omega
  rw [least, minusOne]
  refine ⟨?_, ?_⟩
  · simp only [onWords, Int.tdiv_neg, Int.tdiv_one, IntKind.ofInt?_of_not_holds signed]
    rfl
  · simp only [onWords, Int.tmod_neg, Int.tmod_one]
    rfl

/-- Kinds that arithmetic is done in follow the integers modulo the number of words, and divide
    toward zero. -/
theorem arithmetic_words (wide : isWide k) : ComputesWords k where
  sum a b := ⟨_, k.wrap_modEq _, arithmetic_integer wide add a b⟩
  difference a b := ⟨_, k.wrap_modEq _, arithmetic_integer wide subtract a b⟩
  product a b := ⟨_, k.wrap_modEq _, arithmetic_integer wide multiply a b⟩
  byZero a b zero := by
    rw [arithmetic_integer wide, arithmetic_integer wide]
    exact ⟨if_pos zero, if_pos zero⟩
  quotient a b nonzero fits := by
    have parts := truncates_tdiv (a := a.val) nonzero
    rw [← IntKind.wrap_val (a.holds.tdiv b.holds nonzero fits),
      ← IntKind.wrap_val (a.holds.tmod nonzero)] at parts
    refine ⟨_, _, parts, ?_, ?_, _, arithmetic_integer wide multiply _ b, ?_⟩
    · exact (arithmetic_integer wide divide a b).trans (onWords_divide nonzero fits)
    · exact (arithmetic_integer wide modulo a b).trans (onWords_modulo nonzero)
    · rw [arithmetic_integer wide, onWords, wrap_whole parts (k.wrap_modEq _)]
  leastByMinusOne a b least minusOne := by
    obtain ⟨overflow, rest⟩ := onWords_least least minusOne
    rw [arithmetic_integer wide, arithmetic_integer wide]
    have zero : k.Holds 0 := by
      have bounds := k.low_eq
      unfold IntKind.Holds
      omega
    exact ⟨overflow, _, IntKind.wrap_val zero, rest⟩
  null := arithmetic_null

private def minusSeven : IntKind.int64.Word := ⟨-7, by decide, by decide⟩

private def two : IntKind.int64.Word := ⟨2, by decide, by decide⟩

private def least : IntKind.int64.Word := ⟨-2 ^ 63, by decide, by decide⟩

private def minusOne : IntKind.int64.Word := ⟨-1, by decide, by decide⟩

theorem arithmetic_words_negative :
    isWide .int64 ∧
      (∃ q r : IntKind.int64.Word, Truncates (-7) 2 q.val r.val ∧
        divide.arithmetic (.integer .int64 minusSeven) (.integer .int64 two) =
          .ok (.integer .int64 q) ∧
        modulo.arithmetic (.integer .int64 minusSeven) (.integer .int64 two) =
          .ok (.integer .int64 r)) ∧
      divide.arithmetic (.integer .int64 least) (.integer .int64 minusOne) = .error .overflow := by
  have words : ComputesWords .int64 := arithmetic_words rfl
  obtain ⟨q, r, parts, divided, rest, -⟩ := words.quotient minusSeven two (by decide) (by decide)
  exact ⟨rfl, ⟨q, r, parts, divided, rest⟩, (words.leastByMinusOne least minusOne rfl rfl).1⟩

/-- Seven below zero by two is three below zero, and one below zero is left. -/
example : divide.arithmetic (.int32 (-7)) (.int32 2) = .ok (.int32 (-3)) ∧
    modulo.arithmetic (.int32 (-7)) (.int32 2) = .ok (.int32 (-1)) := ⟨rfl, rfl⟩

end BinaryOp
end TypedExpr
