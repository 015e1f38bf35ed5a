import TypedExpr.Binary.Order
import Mathlib

/-! # Doubles and their patterns

A double is its bit pattern, and there is one pattern only for what is no number. So the values
that have no digits are known by what they stand for.
-/

namespace TypedExpr.Binary

open Float.Model (UnpackedFloat)

variable {x : Float}

theorem double_signBit : BinaryFormat.double.signBit = 2 ^ 63 := by decide

theorem double_infinity : BinaryFormat.double.infinity = 2047 * 2 ^ 52 := by decide

/-- A pattern stands for no number when its exponent field is full and its fraction not empty. -/
private theorem isNaNBits_iff (b : BitVec 64) :
    @UnpackedFloat.isNaNBits .binary64 b ↔
      BinaryFormat.double.infinity < b.toNat % BinaryFormat.double.signBit := by
  rw [double_signBit, double_infinity]
  simp only [UnpackedFloat.isNaNBits, UnpackedFloat.unpackExponent_def,
    UnpackedFloat.unpackMantissa_def, decide_eq_true_eq, ← BitVec.toNat_inj, ne_eq]
  simp
  omega

/-- A pattern that stands for a number is kept. -/
theorem toBits_toFloat {bits : Nat} (h : bits < 2 ^ 64)
    (number : bits % BinaryFormat.double.signBit ≤ BinaryFormat.double.infinity) :
    (toFloat bits).toBits.toNat = bits := by
  have same : (UInt64.ofNat bits).toBitVec.toNat = bits := by
    simpa using Nat.mod_eq_of_lt h
  change (UnpackedFloat.pack .binary64
    (UnpackedFloat.unpack .binary64 (UInt64.ofNat bits).toBitVec)).toNat = bits
  rw [UnpackedFloat.pack_unpack, if_neg, same]
  rw [isNaNBits_iff, same]
  omega

theorem eq_of_ofFloat_notANumber (h : ofFloat x = .notANumber) : x = 0 / 0 := by
  have above : BinaryFormat.double.infinity < x.toBits.toNat % BinaryFormat.double.signBit := by
    by_contra number
    simp only [ofFloat, BinaryFormat.decode, gt_iff_lt, if_neg number] at h
    split at h
    · cases h
    · split at h <;> cases h
  have nan := (isNaNBits_iff x.toBits.toBitVec).mpr above
  simp only [UnpackedFloat.isNaNBits, decide_eq_true_eq] at nan
  have pattern := x.toModel.valid.eq_packedNaN nan.1 nan.2
  rw [← Float.toBits_inj, ← UInt64.toBitVec_inj]
  exact pattern.trans (by decide +kernel)

theorem eq_of_ofFloat_infinite {negative : Bool} (h : ofFloat x = .infinite negative) :
    x = if negative then -1 / 0 else 1 / 0 := by
  have magnitude : x.toBits.toNat % 2 ^ 63 = 2047 * 2 ^ 52 ∧
      negative = decide (2 ^ 63 ≤ x.toBits.toNat) := by
    simp only [ofFloat, BinaryFormat.decode, double_signBit, double_infinity] at h
    split at h
    · cases h
    · split at h
      · cases h
        exact ⟨‹_›, rfl⟩
      · split at h <;> cases h
  obtain ⟨magnitude, rfl⟩ := magnitude
  have bound : x.toBits.toNat < 2 ^ 64 := x.toBits.toNat_lt
  rw [← Float.toBits_inj, ← UInt64.toNat_inj]
  by_cases sign : 2 ^ 63 ≤ x.toBits.toNat
  · have pattern : x.toBits.toNat = 2 ^ 63 + 2047 * 2 ^ 52 := by omega
    simp only [pattern]
    decide +kernel
  · have pattern : x.toBits.toNat = 2047 * 2 ^ 52 := by omega
    simp only [pattern]
    decide +kernel

/-- The pattern of an integer that takes 64 bits; its unit is the twelfth bit. -/
private theorem nearest_of_long {n : Nat} (low : 2 ^ 63 ≤ n) (high : n < 2 ^ 64) :
    BinaryFormat.double.nearest n 1 =
      1085 * 2 ^ 52 + BinaryFormat.roundHalfEven n (2 ^ 11) ∧
      BinaryFormat.roundHalfEven n (2 ^ 11) ≤ 2 ^ 53 := by
  have log : Nat.log2 n = 63 := (Nat.log2_eq_iff (by omega)).mpr ⟨low, high⟩
  have rounded : BinaryFormat.roundHalfEven n (2 ^ 11) ≤ 2 ^ 53 := by
    unfold BinaryFormat.roundHalfEven
    dsimp only
    split
    · omega
    · split <;> omega
  refine ⟨?_, rounded⟩
  have guess : ((Nat.log2 n : Nat) : Int) - Nat.log2 1 = 63 := by
    rw [log]
    decide
  have top : BinaryFormat.scaleDown n 1 63 = (n, 2 ^ 63) := by simp [BinaryFormat.scaleDown]
  have scaled : BinaryFormat.scaleDown n 1 11 = (n, 2 ^ 11) := by simp [BinaryFormat.scaleDown]
  have unit : max BinaryFormat.double.minExponent (63 - ((BinaryFormat.double.precision : Int) - 1))
      = 11 := by decide
  have place : (11 - BinaryFormat.double.minExponent).toNat * BinaryFormat.double.binade =
      1085 * 2 ^ 52 := by decide
  simp only [BinaryFormat.nearest, guess, top, if_pos low, unit, scaled, place, double_infinity]
  rw [if_neg (by omega)]
  omega

private theorem isFinite_decode {bits : Nat}
    (h : bits % BinaryFormat.double.signBit < BinaryFormat.double.infinity) :
    (BinaryFormat.double.decode bits).isFinite := by
  unfold BinaryFormat.decode
  dsimp only
  rw [if_neg (by omega), if_neg (by omega)]
  split <;> rfl

/-- An integer too large for 63 bits, but not for 64, is a finite double. -/
theorem isFinite_floatOfInt {n : Int} (low : 2 ^ 63 ≤ n) (high : n < 2 ^ 64) :
    (ofFloat (floatOfInt n)).isFinite := by
  obtain ⟨pattern, rounded⟩ := nearest_of_long (n := n.natAbs) (by omega) (by omega)
  have positive : ¬ n < 0 := by omega
  have bits : BinaryFormat.double.encode (n < 0) (BinaryFormat.double.nearest n.natAbs 1) =
      1085 * 2 ^ 52 + BinaryFormat.roundHalfEven n.natAbs (2 ^ 11) := by
    simp [BinaryFormat.encode, positive, pattern]
  unfold ofFloat floatOfInt
  rw [bits, toBits_toFloat]
  · refine isFinite_decode ?_
    rw [double_signBit, double_infinity]
    omega
  · omega
  · rw [double_signBit, double_infinity]
    omega

end TypedExpr.Binary
