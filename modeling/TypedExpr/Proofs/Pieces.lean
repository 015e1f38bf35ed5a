import TypedExpr.Proofs.NumberLiterals
import TypedExpr.TimeSpan

/-! # Pieces of texts

A text is taken apart at a separator, and the pieces hold none. Numbers among the pieces are written
with zeros before them to fill a width, and read back as what they were.
-/

namespace TypedExpr

/-! ## Separators -/

namespace Text

variable {sep : Char} {cs before after piece : List Char} {pieces : List (List Char)}

theorem splitFirst?_append (free : sep ∉ before) (after : List Char) :
    splitFirst? sep (before ++ sep :: after) = some (before, after) := by
  induction before with
  | nil => simp [splitFirst?]
  | cons c before ih =>
      obtain ⟨other, free⟩ := not_or.mp (mt List.mem_cons.mpr free)
      simp [splitFirst?, Ne.symm other, ih free]

theorem splitFirst?_of_notMem (free : sep ∉ cs) : splitFirst? sep cs = none := by
  induction cs with
  | nil => rfl
  | cons c cs ih =>
      obtain ⟨other, free⟩ := not_or.mp (mt List.mem_cons.mpr free)
      simp [splitFirst?, Ne.symm other, ih free]

theorem exists_splitAll (sep : Char) (cs : List Char) :
    ∃ piece pieces, splitAll sep cs = piece :: pieces := by
  cases cs with
  | nil => exact ⟨_, _, rfl⟩
  | cons c cs =>
      rw [splitAll]
      split
      · split_ifs <;> exact ⟨_, _, rfl⟩
      · exact ⟨_, _, rfl⟩

theorem splitAll_of_notMem (free : sep ∉ cs) : splitAll sep cs = [cs] := by
  induction cs with
  | nil => rfl
  | cons c cs ih =>
      obtain ⟨other, free⟩ := not_or.mp (mt List.mem_cons.mpr free)
      simp [splitAll, Ne.symm other, ih free]

/-- The pieces are what is before the first separator and the pieces of what is after it. -/
theorem splitAll_append (free : sep ∉ before) (after : List Char) :
    splitAll sep (before ++ sep :: after) = before :: splitAll sep after := by
  induction before with
  | nil =>
      obtain ⟨piece, pieces, h⟩ := exists_splitAll sep after
      simp [splitAll, h]
  | cons c before ih =>
      obtain ⟨other, free⟩ := not_or.mp (mt List.mem_cons.mpr free)
      simp [splitAll, Ne.symm other, ih free]

theorem eq_of_splitAll (h : splitAll sep cs = [piece]) : cs = piece := by
  by_cases there : sep ∈ cs
  · obtain ⟨before, after, rfl, free⟩ := List.eq_append_cons_of_mem there
    obtain ⟨other, others, more⟩ := exists_splitAll sep after
    rw [splitAll_append free, more] at h
    cases h
  · rw [splitAll_of_notMem there] at h
    cases h
    rfl

/-- Behind the first of several pieces stands a separator, and then the others. -/
theorem exists_of_splitAll {next : List Char} (h : splitAll sep cs = piece :: next :: pieces) :
    ∃ rest, cs = piece ++ sep :: rest ∧ splitAll sep rest = next :: pieces := by
  by_cases there : sep ∈ cs
  · obtain ⟨before, after, rfl, free⟩ := List.eq_append_cons_of_mem there
    rw [splitAll_append free] at h
    obtain ⟨rfl, others⟩ := List.cons_eq_cons.mp h
    exact ⟨after, rfl, others⟩
  · rw [splitAll_of_notMem there] at h
    cases h

end Text

/-! ## Numbers of a width -/

namespace Read

/-- Zeros before a number do not change it. -/
theorem decimal_zeros_append (count : Nat) (digits : List Char) :
    decimal (Binary.zeros count ++ digits) = decimal digits := by
  rw [← natOfDigits_eq, ← natOfDigits_eq]
  induction count with
  | zero => rfl
  | succ count ih => exact ih

/-- Zeros behind a number are a power of ten. -/
theorem decimal_append_zeros (digits : List Char) (count : Nat) :
    decimal (digits ++ Binary.zeros count) = decimal digits * 10 ^ count := by
  have value (cs : List Char) : decimal cs = Nat.ofDigitChars 10 cs 0 := by
    rw [← natOfDigits_eq, Nat.ofDigitChars_eq_foldl]
    rfl
  rw [value, value, Nat.ofDigitChars_append, Binary.zeros, Nat.ofDigitChars_replicate_zero,
    Nat.mul_comm]

theorem decimal_digitsOf (n : Nat) : decimal (Binary.digitsOf n) = n := by
  rw [← natOfDigits_eq]
  exact Nat.ofDigitChars_eq_foldl.symm.trans Nat.ofDigitChars_ten_toDigits

theorem decimal_lt {digits : List Char} (h : ∀ c ∈ digits, Text.isDigit c) :
    decimal digits < 10 ^ digits.length := by
  have bound := Nat.ofDigits_lt_base_pow_length (b := 10)
    (l := digits.reverse.map fun c => c.toNat - '0'.toNat) (by decide) ?_
  · simpa [decimal] using bound
  · intro x hx
    obtain ⟨c, hc, rfl⟩ := List.mem_map.mp hx
    have all : "0123456789".toList.all fun c => decide (c.toNat - '0'.toNat < 10) := by decide
    have digit := Text.isDigit_iff_mem.mp (h c (List.mem_reverse.mp hc))
    exact of_decide_eq_true (List.all_eq_true.mp all c digit)

theorem isDigits_of_all {cs : List Char} (h : cs.all Text.isDigit) (some : cs ≠ []) :
    Token.IsDigits cs :=
  ⟨some, List.all_eq_true.mp h⟩

theorem isDigits_digitsOf (n : Nat) : Token.IsDigits (Binary.digitsOf n) :=
  ⟨Nat.toDigits_ne_nil, Binary.isDigit_digitsOf⟩

end Read

namespace TimeSpan

variable {width n : Nat}

theorem decimal_padded (width n : Nat) : Read.decimal (padded width n) = n := by
  rw [padded, Read.decimal_zeros_append, Read.decimal_digitsOf]

theorem isDigits_padded (width n : Nat) : Token.IsDigits (padded width n) := by
  obtain ⟨nonempty, digits⟩ := Read.isDigits_digitsOf n
  refine ⟨by simp [padded, nonempty], fun c hc => ?_⟩
  rcases List.mem_append.mp hc with hc | hc
  · obtain ⟨-, rfl⟩ := List.mem_replicate.mp hc
    rfl
  · exact digits c hc

/-- A number that is not too long has just the width. -/
theorem length_padded (some : 0 < width) (short : n < 10 ^ width) : (padded width n).length = width := by
  have fits : (Binary.digitsOf n).length ≤ width :=
    (Nat.length_toDigits_le_iff (by decide) some).mpr short
  simp only [padded, Binary.zeros, List.length_append, List.length_replicate]
  omega

end TimeSpan
end TypedExpr
