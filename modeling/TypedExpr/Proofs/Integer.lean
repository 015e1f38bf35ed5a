import TypedExpr.Integer
import Mathlib.Data.Int.ModEq

/-! # Words and wrapping

Wrapping keeps every integer that is a word already, and never makes one of another: the word that
it gives equals the integer only if the integer is within the bounds. It is the one word that is
apart from the integer by a multiple of the number of words. Division drops the fraction, so that
what is left over is on the side of zero where the dividend is.
-/

namespace TypedExpr

/-! ## Division toward zero -/

/-- `a` divided by `b` is `q`, toward zero, and leaves `r`. -/
structure Truncates (a b q r : Int) : Prop where
  whole : q * b + r = a
  below : r.natAbs < b.natAbs
  nonneg : 0 ≤ a → 0 ≤ r
  nonpos : a ≤ 0 → r ≤ 0

theorem truncates_tdiv {a b : Int} (hb : b ≠ 0) : Truncates a b (a.tdiv b) (a.tmod b) where
  whole := Int.tdiv_mul_add_tmod a b
  below := by
    rw [Int.natAbs_tmod]
    exact Nat.mod_lt _ (Int.natAbs_pos.mpr hb)
  nonneg := Int.tmod_nonneg b
  nonpos h := by
    have opposite := Int.tmod_nonneg b (Int.neg_nonneg_of_nonpos h)
    rw [Int.neg_tmod] at opposite
    exact Int.nonpos_of_neg_nonneg opposite

/-- Nothing else is the quotient, and nothing else is left. -/
theorem Truncates.unique {a b q r : Int} (h : Truncates a b q r) :
    q = a.tdiv b ∧ r = a.tmod b := by
  have whole : r + b * q = a := by rw [← h.whole, Int.add_comm, Int.mul_comm]
  have below := h.below
  have hb : b ≠ 0 := Int.natAbs_pos.mp (Nat.zero_lt_of_lt below)
  rcases Int.le_total 0 a with positive | negative
  · have small : r < b.natAbs := by omega
    obtain ⟨quotient, rest⟩ :=
      (Int.tdiv_tmod_unique positive hb).mpr ⟨whole, h.nonneg positive, small⟩
    exact ⟨quotient.symm, rest.symm⟩
  · have small : -(b.natAbs : Int) < r := by omega
    obtain ⟨quotient, rest⟩ :=
      (Int.tdiv_tmod_unique' negative hb).mpr ⟨whole, small, h.nonpos negative⟩
    exact ⟨quotient.symm, rest.symm⟩

/-- The quotient by a positive number is on the side of zero where the dividend is. -/
theorem Truncates.quotient_nonneg {a b q r : Int} (hb : 0 < b) (h : Truncates a b q r)
    (ha : 0 ≤ a) : 0 ≤ q := by
  rw [h.unique.1]
  exact Int.tdiv_nonneg ha (Int.le_of_lt hb)

theorem Truncates.quotient_nonpos {a b q r : Int} (hb : 0 < b) (h : Truncates a b q r)
    (ha : a ≤ 0) : q ≤ 0 := by
  have opposite := Int.tdiv_nonneg (Int.neg_nonneg_of_nonpos ha) (Int.le_of_lt hb)
  rw [Int.neg_tdiv, ← h.unique.1] at opposite
  exact Int.nonpos_of_neg_nonneg opposite

/-- A quotient that is divided again is the quotient by the product, and what is left comes
together. -/
theorem Truncates.again {a b c q r q' r' : Int} (hb : 0 < b) (h : Truncates a b q r)
    (h' : Truncates q c q' r') : Truncates a (c * b) q' (r' * b + r) := by
  have hb' := Int.le_of_lt hb
  refine ⟨?_, ?_, fun ha => ?_, fun ha => ?_⟩
  · rw [← h.whole, ← h'.whole, Int.add_mul, Int.mul_assoc, Int.add_assoc]
  · have parts : (r' * b + r).natAbs ≤ r'.natAbs * b.natAbs + r.natAbs := by
      rw [← Int.natAbs_mul]
      exact Int.natAbs_add_le _ _
    have room : (r'.natAbs + 1) * b.natAbs ≤ c.natAbs * b.natAbs :=
      Nat.mul_le_mul_right _ h'.below
    have rest := h.below
    rw [Int.natAbs_mul]
    rw [Nat.add_mul, Nat.one_mul] at room
    omega
  · exact Int.add_nonneg (Int.mul_nonneg (h'.nonneg (h.quotient_nonneg hb ha)) hb') (h.nonneg ha)
  · have moved := Int.mul_nonpos_of_nonpos_of_nonneg (h'.nonpos (h.quotient_nonpos hb ha)) hb'
    have rest := h.nonpos ha
    omega

namespace IntKind

variable {k : IntKind} {n : Int}

/-- The integer is within the bounds of the kind. -/
def Holds (k : IntKind) (n : Int) : Prop := k.low ≤ n ∧ n ≤ k.high

theorem Word.holds (w : k.Word) : k.Holds w.val := ⟨w.low_le, w.le_high⟩

theorem Word.eq_of_val {a b : k.Word} (h : a.val = b.val) : a = b := by
  cases a
  cases b
  simpa using h

theorem Word.val_inj {m n : k.Word} : m.val = n.val ↔ m = n := ⟨eq_of_val, congrArg Word.val⟩

theorem holds_int32 : int32.Holds n ↔ -2 ^ 31 ≤ n ∧ n < 2 ^ 31 := by
  have bounds : int32.low = -2 ^ 31 ∧ int32.high = 2 ^ 31 - 1 := by decide
  unfold Holds
  omega

theorem wrap_val (h : k.Holds n) : (k.wrap n).val = n := by
  have inside : 0 ≤ n - k.low ∧ n - k.low < k.size := by
    have lower := h.1
    have upper := h.2
    unfold high at upper
    omega
  simp only [wrap, Int.emod_eq_of_lt inside.1 inside.2]
  omega

theorem wrap_word (w : k.Word) : k.wrap w.val = w := Word.eq_of_val (wrap_val w.holds)

theorem ofInt?_of_holds (h : k.Holds n) : k.ofInt? n = some (k.wrap n) :=
  (dif_pos h).trans (congrArg some (Word.eq_of_val (wrap_val h).symm))

theorem ofInt?_of_not_holds (h : ¬ k.Holds n) : k.ofInt? n = none := dif_neg h

theorem val_of_ofInt? {w : k.Word} (h : k.ofInt? n = some w) : w.val = n := by
  rw [ofInt?] at h
  split at h
  · cases h
    rfl
  · cases h

/-! ## Congruence -/

theorem wrap_modEq (k : IntKind) (n : Int) : (k.wrap n).val ≡ n [ZMOD k.size] :=
  calc (k.wrap n).val
    _ ≡ k.low + (n - k.low) [ZMOD k.size] := (Int.mod_modEq _ _).add_left _
    _ = n := by omega

theorem wrap_congr {m n : Int} (h : m ≡ n [ZMOD k.size]) : k.wrap m = k.wrap n :=
  Word.eq_of_val (congrArg (k.low + ·) (h.sub_right k.low))

/-- Two words are never apart by a multiple of the number of words. -/
theorem Word.eq_of_modEq {a b : k.Word} (h : a.val ≡ b.val [ZMOD k.size]) : a = b := by
  rw [← wrap_word a, ← wrap_word b, wrap_congr h]

/-! ## Bounds -/

theorem bounds_short (k : IntKind) : -2 ^ 63 ≤ k.low ∧ k.high < 2 ^ 64 := by
  cases k <;> decide

/-- Every word has at most 64 bits. -/
theorem Holds.short (h : k.Holds n) : -2 ^ 63 ≤ n ∧ n < 2 ^ 64 :=
  ⟨Int.le_trans k.bounds_short.1 h.1, Int.lt_of_le_of_lt h.2 k.bounds_short.2⟩

/-- Numbers of 64 bits with a sign hold the words of all kinds but one. -/
theorem Holds.of_short (short : k ≠ .uint64) (h : k.Holds n) : IntKind.int64.Holds n := by
  have bounds : IntKind.int64.low ≤ k.low ∧ k.high ≤ IntKind.int64.high := by
    cases k <;> first | decide | exact absurd rfl short
  exact ⟨Int.le_trans bounds.1 h.1, Int.le_trans h.2 bounds.2⟩

/-- A kind with negative words has one more of them than of positive ones. -/
theorem low_eq (k : IntKind) : 0 ≤ k.high ∧ (k.low = 0 ∨ k.low = -k.high - 1) := by
  cases k <;> decide

/-- What is nearer to zero than a word, on the same side, is a word. -/
theorem Holds.shrink {m : Int} (h : k.Holds m) (closer : n.natAbs ≤ m.natAbs)
    (nonneg : 0 ≤ m → 0 ≤ n) (nonpos : m ≤ 0 → n ≤ 0) : k.Holds n := by
  have bounds := k.low_eq
  unfold Holds at *
  omega

end IntKind
end TypedExpr
