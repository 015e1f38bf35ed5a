import TypedExpr.Proofs.Doubles

/-! # Single numbers as double ones

A number that needs fewer bits than a format has, and is large enough for all of them, is its own
nearest number in the format. Every single number is such a number of the double format. So
widening keeps the order of single numbers, and what is no number stays none.
-/

namespace TypedExpr

namespace BinaryFormat

variable {f : BinaryFormat}

/-! ## Exact numbers -/

theorem scaleDown_den_pos (num : Nat) {den : Nat} (h : 0 < den) (e : Int) :
    0 < (scaleDown num den e).2 := by
  unfold scaleDown
  split
  · exact h
  · exact Nat.mul_pos h (Nat.two_pow_pos _)

theorem scaleDown_ratio (num den : Nat) (e : Int) :
    ((scaleDown num den e).1 : ℚ) / (scaleDown num den e).2 = num / den / 2 ^ e := by
  unfold scaleDown
  split
  · rename_i negative
    have power : (2 : ℚ) ^ e = ((2 : ℚ) ^ (-e).toNat)⁻¹ := by
      rw [← zpow_natCast, ← zpow_neg, Int.toNat_of_nonneg (by omega), neg_neg]
    rw [power]
    push_cast
    field_simp
  · rename_i positive
    have power : (2 : ℚ) ^ e = (2 : ℚ) ^ e.toNat := by
      rw [← zpow_natCast, Int.toNat_of_nonneg (by omega)]
    rw [power]
    push_cast
    field_simp

theorem log2_mul_two_pow {n : Nat} (h : n ≠ 0) (k : Nat) :
    Nat.log2 (n * 2 ^ k) = Nat.log2 n + k := by
  induction k with
  | zero => simp
  | succ k ih =>
      have double : n * 2 ^ (k + 1) = 2 * (n * 2 ^ k) := by ring
      have present : n * 2 ^ k ≠ 0 := by positivity
      rw [double, Nat.log2_two_mul present, ih]
      rfl

/-- The exponent of the first bit of a number, from the logarithms of the parts of its ratio. -/
theorem log2_scaleDown {c : Nat} (h : c ≠ 0) (e : Int) :
    (Nat.log2 (scaleDown c 1 e).1 : Int) - Nat.log2 (scaleDown c 1 e).2 = Nat.log2 c - e := by
  have one : Nat.log2 1 = 0 := by decide
  unfold scaleDown
  split
  · simp only [log2_mul_two_pow h, one]
    omega
  · simp only [log2_mul_two_pow one_ne_zero, one]
    omega

theorem roundHalfEven_mul (n : Nat) {den : Nat} (h : 0 < den) :
    roundHalfEven (n * den) den = n := by
  have exact : n * den % den = 0 := Nat.mul_mod_left n den
  simp only [roundHalfEven, exact, Nat.mul_div_cancel n h]
  rw [if_pos (by omega)]

/-- A number is its own nearest number in a format that has `k` more bits than the number needs,
and in which it is not subnormal. -/
theorem nearest_exact {c k : Nat} {e : Int} (h : c ≠ 0) (bits : f.precision = Nat.log2 c + k + 1)
    (normal : f.minExponent ≤ e - k) :
    f.nearest (scaleDown c 1 (-e)).1 (scaleDown c 1 (-e)).2 =
      min f.infinity ((e - k - f.minExponent).toNat * f.binade + c * 2 ^ k) := by
  have positive := scaleDown_den_pos c one_pos (-e)
  have log := log2_scaleDown h (-e)
  have ratio := scaleDown_ratio c 1 (-e)
  generalize (scaleDown c 1 (-e)).1 = num at log ratio ⊢
  generalize (scaleDown c 1 (-e)).2 = den at positive log ratio ⊢
  replace ratio : (num : ℚ) / den = c * 2 ^ e := by
    rw [ratio, Nat.cast_one, div_one, zpow_neg, div_inv_eq_mul]
  have there : ¬ (num = 0 ∨ den = 0) := by
    have present : (num : ℚ) / den ≠ 0 := by
      rw [ratio]
      positivity
    rintro (rfl | rfl)
    · simp at present
    · simp at present
  have guess : (Nat.log2 num : Int) - Nat.log2 den = Nat.log2 c + e := by omega
  -- the first bit of the number is where the logarithms say
  have first : (scaleDown num den (Nat.log2 c + e)).2 ≤ (scaleDown num den (Nat.log2 c + e)).1 := by
    have pos := scaleDown_den_pos num positive (Nat.log2 c + e)
    have scaled := scaleDown_ratio num den (Nat.log2 c + e)
    rw [ratio, zpow_add₀ two_ne_zero, mul_div_mul_right _ _ (by positivity), zpow_natCast] at scaled
    have low : (2 ^ Nat.log2 c : ℚ) ≤ c := by exact_mod_cast Nat.log2_self_le h
    have one : (1 : ℚ) ≤ c / 2 ^ Nat.log2 c := (one_le_div₀ (by positivity)).mpr low
    rw [← scaled, one_le_div₀ (by exact_mod_cast pos)] at one
    exact_mod_cast one
  have unit : max f.minExponent (Nat.log2 c + e - ((f.precision : Int) - 1)) = e - k := by omega
  -- and the unit of the format divides the number
  have last : (scaleDown num den (e - k)).1 = c * 2 ^ k * (scaleDown num den (e - k)).2 := by
    have pos := scaleDown_den_pos num positive (e - k)
    have scaled := scaleDown_ratio num den (e - k)
    rw [ratio, zpow_sub₀ two_ne_zero, zpow_natCast, div_div_eq_mul_div,
      mul_right_comm, mul_div_assoc, div_self (by positivity), mul_one,
      div_eq_iff (by exact_mod_cast pos.ne')] at scaled
    exact_mod_cast scaled
  simp only [nearest, if_neg there, guess, ge_iff_le, if_pos first, unit, last,
    roundHalfEven_mul _ (scaleDown_den_pos num positive (e - k))]

/-! ## The magnitude of a single number in the double format -/

/-- The magnitude in the double format of what has a magnitude in the single format. -/
def wide (magnitude : Nat) : Nat := double.ofValue (single.decode magnitude)

theorem ofValue_positive (c : Nat) (e : Int) :
    f.ofValue (.finite false c e) = f.nearest (scaleDown c 1 (-e)).1 (scaleDown c 1 (-e)).2 := by
  simp only [ofValue, encode, Bool.false_eq_true, if_false]

theorem single_signBit : single.signBit = 2 ^ 31 := by decide

theorem single_infinity : single.infinity = 255 * 2 ^ 23 := by decide

theorem wide_zero : wide 0 = 0 := by decide

theorem wide_infinity : wide single.infinity = 2047 * 2 ^ 52 := by decide

theorem decode_subnormal {m : Nat} (small : m < 2 ^ 23) :
    single.decode m = .finite false m (-149) := by
  have binade : single.binade = 2 ^ 23 := by decide
  have unsigned : m % 2 ^ 31 = m := Nat.mod_eq_of_lt (by omega)
  have field : m / 2 ^ 23 = 0 := Nat.div_eq_of_lt small
  simp only [decode, single_signBit, single_infinity, binade, unsigned, field, if_true]
  rw [if_neg (by omega), if_neg (by omega), decide_eq_false (by omega)]
  rfl

theorem decode_normal {m : Nat} (low : 2 ^ 23 ≤ m) (high : m < 255 * 2 ^ 23) :
    single.decode m =
      .finite false (m % 2 ^ 23 + 2 ^ 23) (-149 + (m / 2 ^ 23 - 1 : Nat)) := by
  have binade : single.binade = 2 ^ 23 := by decide
  have unsigned : m % 2 ^ 31 = m := Nat.mod_eq_of_lt (by omega)
  simp only [decode, single_signBit, single_infinity, binade, unsigned]
  rw [if_neg (by omega), if_neg (by omega), if_neg (by omega), decide_eq_false (by omega)]
  rfl

/-- The first bit of a number, moved to the first place of the coefficient of a double. -/
theorem top_bit {m : Nat} (h : m ≠ 0) (small : Nat.log2 m ≤ 52) :
    2 ^ 52 ≤ m * 2 ^ (52 - Nat.log2 m) ∧ m * 2 ^ (52 - Nat.log2 m) < 2 ^ 53 := by
  have place : 2 ^ 52 = 2 ^ Nat.log2 m * 2 ^ (52 - Nat.log2 m) := by
    rw [← Nat.pow_add, Nat.add_sub_cancel' small]
  have next : 2 ^ 53 = 2 ^ (Nat.log2 m + 1) * 2 ^ (52 - Nat.log2 m) := by
    rw [← Nat.pow_add]
    congr 1
    omega
  constructor
  · rw [place]
    exact Nat.mul_le_mul_right _ (Nat.log2_self_le h)
  · rw [next]
    exact Nat.mul_lt_mul_of_pos_right Nat.lt_log2_self (Nat.two_pow_pos _)

theorem log2_subnormal {m : Nat} (h : m ≠ 0) (small : m < 2 ^ 23) : Nat.log2 m ≤ 22 :=
  Nat.lt_succ_iff.mp ((Nat.log2_lt h).mpr small)

theorem wide_subnormal {m : Nat} (h : m ≠ 0) (small : m < 2 ^ 23) :
    wide m = (Nat.log2 m + 873) * 2 ^ 52 + m * 2 ^ (52 - Nat.log2 m) := by
  have log := log2_subnormal h small
  have bits : double.precision = Nat.log2 m + (52 - Nat.log2 m) + 1 := by
    rw [Nat.add_sub_cancel' (by omega)]
    rfl
  have least : double.minExponent = -1074 := rfl
  have number := nearest_exact (e := -149) h bits (by omega)
  have field : (-149 - ((52 - Nat.log2 m : Nat) : Int) - double.minExponent).toNat =
      Nat.log2 m + 873 := by omega
  have binade : double.binade = 2 ^ 52 := by decide
  have top := top_bit h (by omega)
  rw [field, binade, Binary.double_infinity, Nat.min_eq_right (by omega)] at number
  rw [wide, decode_subnormal small, ofValue_positive, number]

/-- The fields of a normal single number, moved to their places in a double one. -/
theorem moved_fields (m : Nat) : (m / 2 ^ 23 + 895) * 2 ^ 52 + (m % 2 ^ 23 + 2 ^ 23) * 2 ^ 29 =
    896 * 2 ^ 52 + m * 2 ^ 29 := by
  omega

theorem wide_normal {m : Nat} (low : 2 ^ 23 ≤ m) (high : m < 255 * 2 ^ 23) :
    wide m = 896 * 2 ^ 52 + m * 2 ^ 29 := by
  have short : m % 2 ^ 23 < 2 ^ 23 := Nat.mod_lt _ (by decide)
  have present : 1 ≤ m / 2 ^ 23 := (Nat.one_le_div_iff (by decide)).mpr low
  have log : Nat.log2 (m % 2 ^ 23 + 2 ^ 23) = 23 :=
    (Nat.log2_eq_iff (by simp)).mpr ⟨Nat.le_add_left _ _, Nat.add_lt_add_right short _⟩
  have bits : double.precision = Nat.log2 (m % 2 ^ 23 + 2 ^ 23) + 29 + 1 := by
    rw [log]
    rfl
  have least : double.minExponent = -1074 := rfl
  have binade : double.binade = 2 ^ 52 := by decide
  have field : (-149 + ((m / 2 ^ 23 - 1 : Nat) : Int) - (29 : Nat) - double.minExponent).toNat =
      m / 2 ^ 23 + 895 := by
    clear low high
    omega
  have finite : 896 * 2 ^ 52 + m * 2 ^ 29 ≤ 2047 * 2 ^ 52 := by omega
  rw [wide, decode_normal low high, ofValue_positive, nearest_exact (by simp) bits (by omega),
    field, binade, moved_fields, Binary.double_infinity, Nat.min_eq_right finite]

theorem log2_mono {m n : Nat} (present : m ≠ 0) (h : m ≤ n) : Nat.log2 m ≤ Nat.log2 n := by
  rw [Nat.le_log2 (by omega)]
  exact (Nat.log2_self_le present).trans h

/-- Of two magnitudes in the single format the larger one is larger in the double format. -/
theorem wide_strictMono {m n : Nat} (h : m < n) (number : n ≤ single.infinity) :
    wide m < wide n := by
  rw [single_infinity] at number
  -- what is not normal lies below the binade with the field 897
  have subnormal : ∀ {k : Nat}, k < 2 ^ 23 → wide k < 897 * 2 ^ 52 := by
    intro k small
    rcases Nat.eq_zero_or_pos k with rfl | positive
    · rw [wide_zero]
      omega
    · have log := log2_subnormal positive.ne' small
      have top := top_bit positive.ne' (log.trans (by decide))
      rw [wide_subnormal positive.ne' small]
      omega
  rcases Nat.lt_or_ge n (2 ^ 23) with small | normal
  · have present : n ≠ 0 := Nat.ne_of_gt (Nat.zero_lt_of_lt h)
    have top := top_bit present ((log2_subnormal present small).trans (by decide))
    rw [wide_subnormal present small]
    rcases Nat.eq_zero_or_pos m with rfl | positive
    · rw [wide_zero]
      omega
    · have lower := top_bit positive.ne' ((log2_mono positive.ne' h.le).trans
        ((log2_subnormal present small).trans (by decide)))
      rw [wide_subnormal positive.ne' (h.trans small)]
      rcases Nat.eq_or_lt_of_le (log2_mono positive.ne' h.le) with same | less
      · rw [same]
        exact Nat.add_lt_add_left (Nat.mul_lt_mul_of_pos_right h (Nat.two_pow_pos _)) _
      · omega
  · rcases Nat.lt_or_ge m (2 ^ 23) with small | low
    · have below := subnormal small
      rcases Nat.eq_or_lt_of_le number with rfl | finite
      · rw [← single_infinity, wide_infinity]
        omega
      · rw [wide_normal normal finite]
        omega
    · rw [wide_normal low (by omega)]
      rcases Nat.eq_or_lt_of_le number with rfl | finite
      · rw [← single_infinity, wide_infinity]
        omega
      · rw [wide_normal normal finite]
        omega

theorem wide_le_infinity {m : Nat} (number : m ≤ single.infinity) : wide m ≤ double.infinity := by
  rw [Binary.double_infinity, ← wide_infinity]
  rcases Nat.eq_or_lt_of_le number with rfl | less
  · exact Nat.le_refl _
  · exact (wide_strictMono less (Nat.le_refl _)).le

/-- A single number with its sign becomes a double one of the same sign. -/
theorem ofValue_decode {bits : Nat} (number : bits % single.signBit ≤ single.infinity) :
    double.ofValue (single.decode bits) =
      double.encode (single.signBit ≤ bits) (wide (bits % single.signBit)) := by
  have sign : ∀ (negative : Bool) (c : Nat) (e : Int), double.ofValue (.finite negative c e) =
      double.encode negative (double.ofValue (.finite false c e)) := by
    intro negative c e
    simp only [ofValue, encode, Bool.false_eq_true, if_false]
  have short : bits % single.signBit < single.signBit := Nat.mod_lt _ (by decide)
  have unsigned : decide (single.signBit ≤ bits % single.signBit) = false :=
    decide_eq_false (Nat.not_le.mpr short)
  simp only [wide, decode, Nat.mod_eq_of_lt short, unsigned, gt_iff_lt,
    if_neg (Nat.not_lt.mpr number)]
  split
  · simp only [ofValue, encode, Bool.false_eq_true, if_false]
  · split
    · exact sign _ _ _
    · exact sign _ _ _

end BinaryFormat

namespace Binary

open BinaryFormat

/-! ## Keys of widened numbers -/

/-- The key of a pattern that stands for a number. -/
theorem key?_number {f : BinaryFormat} {bits : Nat} (number : bits % f.signBit ≤ f.infinity) :
    key? f bits = some (if f.signBit ≤ bits then -((bits % f.signBit : Nat) : Int)
      else (bits % f.signBit : Nat)) := by
  simp only [key?, gt_iff_lt, if_neg (Nat.not_lt.mpr number)]

theorem key?_of_nan {f : BinaryFormat} {bits : Nat} (nan : f.infinity < bits % f.signBit) :
    key? f bits = none := by
  simp only [key?, gt_iff_lt, if_pos nan]

theorem floatKey?_encode {m : Nat} (negative : Bool) (number : m ≤ double.infinity) :
    floatKey? (toFloat (double.encode negative m)) =
      some (if negative then -(m : Int) else m) := by
  rw [double_infinity] at number
  cases negative with
  | false =>
      have pattern : m % double.signBit = m := by
        rw [double_signBit]
        omega
      have within : m % double.signBit ≤ double.infinity := by
        rw [pattern, double_infinity]
        exact number
      have unsigned : ¬ double.signBit ≤ m := by
        rw [double_signBit]
        omega
      rw [encode, if_neg Bool.false_ne_true, floatKey?, toBits_toFloat (by omega) within,
        key?_number within, if_neg unsigned, pattern]
      rfl
  | true =>
      have pattern : (double.signBit + m) % double.signBit = m := by
        rw [double_signBit]
        omega
      have within : (double.signBit + m) % double.signBit ≤ double.infinity := by
        rw [pattern, double_infinity]
        exact number
      have bound : double.signBit + m < 2 ^ 64 := by
        rw [double_signBit]
        omega
      rw [encode, if_pos rfl, floatKey?, toBits_toFloat bound within, key?_number within,
        if_pos (Nat.le_add_right _ _), pattern]
      rfl

/-- The key of a double number from that of a single one. -/
def wideKey (key : Int) : Int := key.sign * wide key.natAbs

theorem wideKey_natCast (m : Nat) : wideKey m = wide m := by
  rw [wideKey, Int.natAbs_natCast]
  rcases Nat.eq_zero_or_pos m with rfl | positive
  · rw [wide_zero]
    rfl
  · rw [Int.sign_natCast_of_ne_zero positive.ne', Int.one_mul]

theorem wideKey_neg (k : Int) : wideKey (-k) = -wideKey k := by
  rw [wideKey, Int.sign_neg, Int.natAbs_neg, Int.neg_mul, wideKey]

theorem wideKey_strictMono {k l : Int} (h : k < l) (low : -(single.infinity : Int) ≤ k)
    (high : l ≤ single.infinity) : wideKey k < wideKey l := by
  -- a key is a magnitude or the opposite of one
  obtain ⟨m, rfl | rfl⟩ := k.eq_nat_or_neg
  · obtain ⟨n, rfl⟩ := Int.eq_ofNat_of_zero_le (show 0 ≤ l by omega)
    rw [wideKey_natCast, wideKey_natCast]
    exact_mod_cast wide_strictMono (by omega) (by omega)
  · obtain ⟨n, rfl | rfl⟩ := l.eq_nat_or_neg
    · rw [wideKey_neg, wideKey_natCast, wideKey_natCast]
      rcases Nat.eq_zero_or_pos m with rfl | positive
      · have larger : wide 0 < wide n := wide_strictMono (by omega) (by omega)
        rw [wide_zero] at larger ⊢
        omega
      · have larger : wide 0 < wide m := wide_strictMono positive (by omega)
        omega
    · rw [wideKey_neg, wideKey_neg, wideKey_natCast, wideKey_natCast]
      have smaller : wide n < wide m := wide_strictMono (by omega) (by omega)
      omega

theorem floatKey?_widen (x : Float32) : floatKey? (widen x) = (float32Key? x).map wideKey := by
  rw [float32Key?, widen, ofFloat32]
  generalize x.toBits.toNat = bits
  by_cases number : bits % single.signBit ≤ single.infinity
  · rw [ofValue_decode number, floatKey?_encode _ (wide_le_infinity number), key?_number number,
      Option.map_some]
    by_cases negative : single.signBit ≤ bits
    · rw [if_pos (decide_eq_true negative), if_pos negative, wideKey_neg, wideKey_natCast]
    · rw [if_neg (by simpa using negative), if_neg negative, wideKey_natCast]
  · have nan := Nat.lt_of_not_le number
    have value : double.ofValue (single.decode bits) = double.infinity + 1 := by
      simp only [decode, gt_iff_lt, if_pos nan, ofValue]
    have quiet : floatKey? (toFloat (double.infinity + 1)) = none := by decide +kernel
    rw [value, key?_of_nan nan, quiet]
    rfl

/-- The keys of single numbers lie between those of the infinities. -/
theorem float32Key?_bounds {x : Float32} {k : Int} (h : float32Key? x = some k) :
    -(single.infinity : Int) ≤ k ∧ k ≤ single.infinity := by
  rw [float32Key?] at h
  generalize x.toBits.toNat = bits at h
  by_cases number : bits % single.signBit ≤ single.infinity
  · rw [key?_number number] at h
    have value := Option.some.inj h
    split at value <;> omega
  · rw [key?_of_nan (Nat.lt_of_not_le number)] at h
    cases h

/-- Widening keeps the order of single numbers, and what is no number stays none. -/
theorem compareFloat?_widen (x y : Float32) :
    compareFloat? (widen x) (widen y) =
      (float32Key? x).bind fun k => (float32Key? y).map (compare k) := by
  rw [compareFloat?, floatKey?_widen, floatKey?_widen]
  cases first : float32Key? x with
  | none => rfl
  | some k =>
      cases second : float32Key? y with
      | none => rfl
      | some l =>
          obtain ⟨lowK, highK⟩ := float32Key?_bounds first
          obtain ⟨lowL, highL⟩ := float32Key?_bounds second
          have order : compare (wideKey k) (wideKey l) = compare k l := by
            rcases lt_trichotomy k l with less | rfl | greater
            · rw [compare_lt_iff_lt.mpr less, compare_lt_iff_lt.mpr
                (wideKey_strictMono less lowK highL)]
            · rw [compare_eq_iff_eq.mpr rfl, compare_eq_iff_eq.mpr rfl]
            · rw [compare_gt_iff_gt.mpr greater, compare_gt_iff_gt.mpr
                (wideKey_strictMono greater lowL highK)]
          exact congrArg some order

end Binary

end TypedExpr
