import TypedExpr.Binary.Order
import TypedExpr.Decimal

/-! # Normal forms of numbers

The hash code of a number is that of its normal form, while numbers are compared in other ways:
binary ones by their sort keys, decimals in units of the smallest scale. Where these agree the
normal forms are the same.
-/

namespace TypedExpr

/-! ## Binary numbers -/

namespace Binary

variable {f : BinaryFormat} {a b : Nat}

/-- A pattern is its magnitude with or without the sign. -/
theorem eq_sign_add_magnitude (h : a < 2 * f.signBit) :
    a = (if f.signBit ≤ a then f.signBit else 0) + a % f.signBit := by
  split
  next negative =>
    rw [Nat.mod_eq_sub_mod negative, Nat.mod_eq_of_lt (by omega)]
    omega
  next positive =>
    rw [Nat.mod_eq_of_lt (Nat.not_le.mp positive), Nat.zero_add]

theorem canonicalBits_of_key (ha : a < 2 * f.signBit) (hb : b < 2 * f.signBit)
    (h : key? f a = key? f b) : canonicalBits f a = canonicalBits f b := by
  have splitA := eq_sign_add_magnitude ha
  have splitB := eq_sign_add_magnitude hb
  simp only [key?] at h
  simp only [canonicalBits]
  generalize a % f.signBit = m at h splitA ⊢
  generalize b % f.signBit = n at h splitB ⊢
  by_cases nanA : m > f.infinity
  · by_cases nanB : n > f.infinity
    · rw [if_pos nanA, if_pos nanB]
    · rw [if_pos nanA, if_neg nanB] at h
      cases h
  · by_cases nanB : n > f.infinity
    · rw [if_neg nanA, if_pos nanB] at h
      cases h
    · rw [if_neg nanA, if_neg nanB] at h ⊢
      -- the magnitudes are equal, and so are the signs if the magnitude is not zero
      have keys := Option.some.inj h
      grind

theorem double_canonicalBits {x y : Float} (h : floatKey? x = floatKey? y) :
    canonicalBits .double x.toBits.toNat = canonicalBits .double y.toBits.toNat := by
  have bound : 2 ^ 64 = 2 * BinaryFormat.double.signBit := by decide
  exact canonicalBits_of_key (bound ▸ x.toBits.toNat_lt) (bound ▸ y.toBits.toNat_lt) h

theorem single_canonicalBits {x y : Float32} (h : float32Key? x = float32Key? y) :
    canonicalBits .single x.toBits.toNat = canonicalBits .single y.toBits.toNat := by
  have bound : 2 ^ 32 = 2 * BinaryFormat.single.signBit := by decide
  exact canonicalBits_of_key (bound ▸ x.toBits.toNat_lt) (bound ▸ y.toBits.toNat_lt) h

end Binary

/-! ## Decimals -/

namespace Decimal

/-- Stripping zeros keeps the number in units of any scale that is fine enough. -/
theorem stripZeros_units (n : Nat) {scale fine : Nat} (h : scale ≤ fine) :
    (stripZeros n scale).1 * 10 ^ (fine - (stripZeros n scale).2) = n * 10 ^ (fine - scale) := by
  induction scale generalizing n with
  | zero => rfl
  | succ scale ih =>
      rw [stripZeros]
      split
      next zero =>
        have finer : fine - scale = fine - (scale + 1) + 1 := by omega
        rw [ih (n / 10) (by omega), finer, Nat.pow_succ, Nat.mul_comm (10 ^ _), ← Nat.mul_assoc,
          Nat.div_mul_cancel (Nat.dvd_of_mod_eq_zero zero)]
      next => rfl

/-- No zeros are left that could be stripped. -/
theorem stripZeros_ends (n scale : Nat) :
    (stripZeros n scale).2 = 0 ∨ (stripZeros n scale).1 % 10 ≠ 0 := by
  induction scale generalizing n with
  | zero => exact .inl rfl
  | succ scale ih =>
      rw [stripZeros]
      split
      next => exact ih (n / 10)
      next digit => exact .inr digit

/-- Numbers with other scales and equal units: the one with more digits ends with a zero. -/
theorem scale_le_of_units {m n s t fine : Nat} (ht : t ≤ fine) (ends : t = 0 ∨ n % 10 ≠ 0)
    (same : m * 10 ^ (fine - s) = n * 10 ^ (fine - t)) : t ≤ s := by
  rcases ends with rfl | digit
  · exact Nat.zero_le s
  · refine Nat.not_lt.mp fun more => ?_
    have finer : fine - s = fine - t + (t - s - 1) + 1 := by omega
    have longer : m * 10 ^ (t - s - 1) * 10 = n := by
      apply Nat.eq_of_mul_eq_mul_right (Nat.pow_pos (n := fine - t) (show 0 < 10 by decide))
      rw [← same, finer, Nat.pow_succ, Nat.pow_add]
      ac_rfl
    exact digit (by rw [← longer, Nat.mul_mod_left])

theorem stripZeros_of_units {m n s t fine : Nat} (hs : s ≤ fine) (ht : t ≤ fine)
    (same : m * 10 ^ (fine - s) = n * 10 ^ (fine - t)) : stripZeros m s = stripZeros n t := by
  have fineS := Nat.le_trans (stripZeros_le m s).2 hs
  have fineT := Nat.le_trans (stripZeros_le n t).2 ht
  have units : (stripZeros m s).1 * 10 ^ (fine - (stripZeros m s).2) =
      (stripZeros n t).1 * 10 ^ (fine - (stripZeros n t).2) := by
    rw [stripZeros_units m hs, stripZeros_units n ht, same]
  have digits : (stripZeros m s).2 = (stripZeros n t).2 :=
    Nat.le_antisymm (scale_le_of_units fineS (stripZeros_ends m s) units.symm)
      (scale_le_of_units fineT (stripZeros_ends n t) units)
  rw [digits] at units
  exact Prod.ext (Nat.eq_of_mul_eq_mul_right (Nat.pow_pos (by decide)) units) digits

theorem natAbs_units (d : Decimal) :
    d.units.natAbs = d.coefficient * 10 ^ (maxScale - d.scale) := by
  have sign : d.signedCoefficient.natAbs = d.coefficient := by
    rw [signedCoefficient]
    split <;> simp
  rw [units, Int.natAbs_mul, sign, Int.natAbs_pow]
  rfl

theorem units_neg_iff (d : Decimal) :
    (d.negative && d.coefficient != 0) = true ↔ d.units < 0 := by
  have one : (0 : Int) < 10 ^ (maxScale - d.scale) := Int.pow_pos (by decide)
  have sign : d.units < 0 ↔ d.signedCoefficient < 0 := by
    rw [units]
    refine ⟨fun h => ?_, fun h => Int.mul_neg_of_neg_of_pos h one⟩
    refine Int.not_le.mp fun nonneg => absurd h (Int.not_lt.mpr ?_)
    exact Int.mul_nonneg nonneg (Int.le_of_lt one)
  rw [sign, signedCoefficient]
  cases d.negative with
  | false =>
      rw [Bool.false_and, if_neg Bool.false_ne_true]
      exact iff_of_false Bool.false_ne_true (by omega)
  | true =>
      rw [Bool.true_and, if_pos rfl, bne_iff_ne]
      omega

/-- Decimals of one number have one normal form. -/
theorem normalized_of_units {a b : Decimal} (h : a.units = b.units) :
    a.normalized = b.normalized := by
  have magnitudes : a.coefficient * 10 ^ (maxScale - a.scale) =
      b.coefficient * 10 ^ (maxScale - b.scale) := by
    rw [← natAbs_units, ← natAbs_units, h]
  have stripped := stripZeros_of_units a.scale_le b.scale_le magnitudes
  have signs : (a.negative && a.coefficient != 0) = (b.negative && b.coefficient != 0) := by
    rw [Bool.eq_iff_iff, units_neg_iff, units_neg_iff, h]
  simp only [normalized, stripped, signs]

end Decimal

end TypedExpr
