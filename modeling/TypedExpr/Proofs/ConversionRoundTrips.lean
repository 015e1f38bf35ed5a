import TypedExpr.Proofs.IntegralConversion

/-! # Conversions there and back

A number becomes a member of an enumeration and a character becomes a number, and both are asked
back for. Members are numbered by words of 64 bits with a sign: what is above these words is kept
as a negative number, and refused on the way back. Characters are made from codes of 16 bits, so
that a longer code is refused, although there are characters with such codes.
-/

namespace TypedExpr

namespace Value

variable {e : EnumType} {k : IntKind}

/-! ## Members of enumerations -/

/-- The member that a number stands for, if the numbers of the enumeration are of its kind. -/
def memberOf (e : EnumType) (x : k.Word) : Value := .enum e (IntKind.int64.wrap x.val)

theorem convert_enum_checked (he : e.underlying = .integer k) (x : k.Word) :
    (Value.integer k x).convert true (.enum e) = .ok (memberOf e x) := by
  have word : ofIntegral x.val true e.underlying = .ok (.integer k x) := by
    simp only [he, ofIntegral, IntKind.ofInt?_of_holds x.holds, IntKind.wrap_word]
    rfl
  have steps : (Value.integer k x).convert true (.enum e) =
      (ofIntegral x.val true e.underlying >>= fun n =>
        Outcome.ofOption (.cast (.integer k x) (.enum e)) n.toInt? >>= fun n =>
          .ok (.enum e (IntKind.int64.wrap n))) := rfl
  rw [steps, word]
  rfl

/-- Numbers of 64 bits without a sign are kept as numbers with one. -/
private theorem wrap_int64 {n : Int} (short : -2 ^ 63 ≤ n ∧ n < 2 ^ 64) :
    (IntKind.int64.wrap n).val = if n < 2 ^ 63 then n else n - 2 ^ 64 := by
  simp only [IntKind.wrap, IntKind.low, IntKind.size, IntKind.isSigned, if_true]
  split <;> omega

/-- Only one kind has words this long, and none of its words is negative. -/
private theorem nonneg_of_long {x y : k.Word} (long : 2 ^ 63 ≤ x.val) : k.low = 0 ∧ 0 ≤ y.val := by
  have unsigned : k = .uint64 := by
    by_contra short
    have high : x.val ≤ 2 ^ 63 - 1 := (x.holds.of_short short).2
    omega
  subst unsigned
  exact ⟨rfl, y.low_le⟩

theorem memberOf_convert_checked (e : EnumType) (x : k.Word) :
    (memberOf e x).convert true (.integer k) =
      if x.val < 2 ^ 63 then .ok (.integer k x) else .error .overflow := by
  have number := wrap_int64 x.holds.short
  rw [memberOf, (IntegralPart.enum e _).convert_checked, number]
  split
  · rw [IntKind.ofInt?_of_holds x.holds, IntKind.wrap_word]
    rfl
  · rename_i long
    have outside : ¬ k.Holds (x.val - 2 ^ 64) := by
      intro holds
      have low := holds.1
      rw [(nonneg_of_long (y := x) (Int.not_lt.mp long)).1] at low
      have high := x.holds.short.2
      omega
    rw [IntKind.ofInt?_of_not_holds outside]
    rfl

theorem compare?_members (e : EnumType) {x y : k.Word} (less : x.val < y.val) :
    (memberOf e x).compare? (memberOf e y) = some .lt ↔ y.val < 2 ^ 63 ∨ 2 ^ 63 ≤ x.val := by
  have numbers : (memberOf e x).compare? (memberOf e y) =
      some (compare (IntKind.int64.wrap x.val).val (IntKind.int64.wrap y.val).val) := rfl
  rw [numbers, Option.some_inj, compare_lt_iff_lt, wrap_int64 x.holds.short,
    wrap_int64 y.holds.short]
  have bounds := y.holds.short
  by_cases long : 2 ^ 63 ≤ y.val
  · have positive := (nonneg_of_long (y := x) long).2
    split <;> split <;> omega
  · split <;> split <;> omega

/-- Every number of an enumeration becomes a member. Numbers below `2 ^ 63` come back from it, and
    only they do; members are in the order of their numbers unless just the greater one is not
    below `2 ^ 63`. -/
theorem enum_there_and_back {e : EnumType} {k : IntKind} (he : e.underlying = .integer k)
    (x : k.Word) :
    ∃ member, (Value.integer k x).convert true (.enum e) = .ok member ∧
      member.convert true (.integer k) =
        (if x.val < 2 ^ 63 then .ok (.integer k x) else .error .overflow) ∧
      ∀ y : k.Word, x.val < y.val →
        ∃ greater, (Value.integer k y).convert true (.enum e) = .ok greater ∧
          (member.compare? greater = some .lt ↔ y.val < 2 ^ 63 ∨ 2 ^ 63 ≤ x.val) := by
  refine ⟨memberOf e x, convert_enum_checked he x, memberOf_convert_checked e x, fun y less => ?_⟩
  exact ⟨memberOf e y, convert_enum_checked he y, compare?_members e less⟩

private def level : EnumType := ⟨1, "Level", .sbyte, [("Low", IntKind.int64.wrap (-128))]⟩

private def lowest : IntKind.sbyte.Word := ⟨-128, by decide, by decide⟩

theorem enum_there_and_back_level :
    level.underlying = .sbyte ∧
      ∃ member, (Value.integer .sbyte lowest).convert true (.enum level) = .ok member ∧
        member.convert true .sbyte = .ok (.integer .sbyte lowest) := by
  obtain ⟨member, there, back, -⟩ := enum_there_and_back (e := level) rfl lowest
  exact ⟨rfl, member, there, back⟩

private def big : EnumType := ⟨1, "Big", .uint64, []⟩

/-- The number `n` of sixty-four bits without a sign. -/
private def long (n : Int) : Value := .integer .uint64 (IntKind.uint64.wrap n)

/-- The first number that is not below `2 ^ 63` becomes a member with a negative number, is refused
    on the way back, and comes before the number that is one less. -/
theorem enum_number_lost :
    (long (2 ^ 63)).convert true (.enum big) =
        .ok (.enum big (IntKind.int64.wrap (-2 ^ 63))) ∧
      (Value.enum big (IntKind.int64.wrap (-2 ^ 63))).convert true .uint64 = .error .overflow ∧
      (long (2 ^ 63 - 1)).convert true (.enum big) =
        .ok (.enum big (IntKind.int64.wrap (2 ^ 63 - 1))) ∧
      (Value.enum big (IntKind.int64.wrap (2 ^ 63 - 1))).compare?
        (.enum big (IntKind.int64.wrap (-2 ^ 63))) = some .gt :=
  ⟨rfl, rfl, rfl, rfl⟩

/-! ## Characters -/

theorem holds_char (c : Char) {k : IntKind} (wide : 2 ^ 32 ≤ k.size) : k.Holds c.toNat := by
  have code : c.toNat < 0x110000 := by
    rcases c.valid with low | ⟨-, high⟩
    · exact Nat.lt_trans low (by decide)
    · exact high
  have bounds : k.low ≤ 0 ∧ 0x110000 ≤ k.high := by
    cases k <;> first | decide | exact absurd wide (by decide)
  exact ⟨by omega, by omega⟩

/-- A code is a character if it has 16 bits. -/
theorem ofCharCode_checked (c : Char) : ofCharCode c.toNat true =
    if c.toNat < 2 ^ 16 then .ok (.char c) else .error .overflow := by
  have holds : IntKind.uint16.Holds c.toNat ↔ c.toNat < 2 ^ 16 := by
    simp only [IntKind.Holds, IntKind.low, IntKind.high, IntKind.size, IntKind.isSigned,
      Bool.false_eq_true, if_false]
    omega
  split
  · rename_i short
    have code : (IntKind.uint16.wrap c.toNat).val = c.toNat := IntKind.wrap_val (holds.mpr short)
    have valid : c.toNat.isValidChar := c.valid
    have made : ofCharCode c.toNat true =
        if c.toNat.isValidChar then .ok (.char (Char.ofNat c.toNat)) else .error .overflow := by
      simp only [ofCharCode, if_true, IntKind.ofInt?_of_holds (holds.mpr short), Option.map_some,
        code]
      rfl
    rw [made, if_pos valid, Char.ofNat_toNat]
  · rename_i long
    simp only [ofCharCode, if_true, IntKind.ofInt?_of_not_holds (mt holds.mp long)]
    rfl

/-- The word that the code of a character is, and what the word is as a character. -/
theorem convert_char_word (c : Char) {k : IntKind} (wide : 2 ^ 32 ≤ k.size) :
    ∃ w : k.Word, w.val = c.toNat ∧
      (Value.char c).convert true (.integer k) = .ok (.integer k w) ∧
      (Value.integer k w).convert true .char =
        if c.toNat < 2 ^ 16 then .ok (.char c) else .error .overflow := by
  have holds := holds_char c wide
  have code := IntKind.wrap_val holds
  refine ⟨k.wrap c.toNat, code, ?_, ?_⟩
  · rw [(IntegralPart.char c).convert_checked, IntKind.ofInt?_of_holds holds]
    rfl
  · have made : (Value.integer k (k.wrap c.toNat)).convert true .char =
        ofCharCode (k.wrap c.toNat).val true := rfl
    rw [made, code, ofCharCode_checked]

end Value

namespace Operand

/-- Where no constructor takes an operand, a type that is called with it is a conversion. Between
    different types of numbers without null it is checked. -/
theorem construct_checked {t : Ty} {o : Operand} (pos : Nat) (none : Catalog.constructors t = [])
    (different : o.ty ≠ t) (values : o.ty.isValueType ∧ t.isValueType)
    (present : o.ty.isNullable = false ∧ t.isNullable = false)
    (numbers : isNumberLike o.ty ∧ isNumberLike t) :
    construct t [o] pos = .ok (plain (.convert true o.expr t)) := by
  simp [construct, none, Overload.resolve, convert, different, values, present, differInNull,
    numbers]

/-- A character that a text asks for as a number, and the number as a character again. Both
    conversions are checked. The first one always succeeds, with the code of the character; the
    second one gives the character if the code has 16 bits, and overflows if it is longer. -/
theorem char_there_and_back {k : IntKind} (wide : 2 ^ 32 ≤ k.size) (c : Char) :
    ∃ w : k.Word, w.val = c.toNat ∧
      (Value.char c).convert true (.integer k) = .ok (.integer k w) ∧
      (Value.integer k w).convert true .char =
        (if c.toNat < 2 ^ 16 then .ok (.char c) else .error .overflow) ∧
      ∀ (o : Operand) (pos pos' : Nat) (host : Host) (scope : Scope), o.ty = .char →
        o.expr.eval host scope = .ok (.char c) →
        ∃ number, construct (.integer k) [o] pos = .ok number ∧
          number.expr.eval host scope = .ok (.integer k w) ∧
          ∃ again, construct .char [number] pos' = .ok again ∧
            again.expr.eval host scope =
              if c.toNat < 2 ^ 16 then .ok (.char c) else .error .overflow := by
  obtain ⟨w, code, there, back⟩ := Value.convert_char_word c wide
  refine ⟨w, code, there, back, fun o pos pos' host scope ho hc => ?_⟩
  have number : construct (.integer k) [o] pos = .ok (plain (.convert true o.expr (.integer k))) := by
    refine construct_checked pos rfl ?_ ?_ ?_ ?_ <;> rw [ho]
    · exact fun same => by cases same
    · exact ⟨rfl, rfl⟩
    · exact ⟨rfl, rfl⟩
    · cases k <;> exact ⟨rfl, rfl⟩
  have value : Expr.eval host (.convert true o.expr (.integer k)) scope = .ok (.integer k w) := by
    rw [eval_convert hc, there]
  refine ⟨_, number, value, plain (.convert true (.convert true o.expr (.integer k)) .char), ?_, ?_⟩
  · refine construct_checked pos' rfl (fun same => by cases same) ⟨rfl, rfl⟩ ⟨rfl, rfl⟩ ?_
    cases k <;> exact ⟨rfl, rfl⟩
  · exact (eval_convert value).trans back

private def letter : Operand := plain (.parameter ⟨0, "c", .char⟩)

private def hostless : Host := fun _ _ _ => .error "no host"

private def standsFor (c : Char) : Scope := [(⟨0, "c", .char⟩, .char c)]

theorem char_there_and_back_sigma :
    2 ^ 32 ≤ IntKind.uint32.size ∧
      ∃ number, construct .uint32 [letter] 0 = .ok number ∧
        ∃ again, construct .char [number] 0 = .ok again ∧
          again.expr.eval hostless (standsFor 'σ') = .ok (.char 'σ') := by
  obtain ⟨w, -, -, -, asked⟩ := char_there_and_back (k := .uint32) (by decide) 'σ'
  obtain ⟨number, there, -, again, back, value⟩ :=
    asked letter 0 0 hostless (standsFor 'σ') rfl rfl
  exact ⟨by decide, number, there, again, back, value⟩

/-- A face with a code of seventeen bits. -/
private def face : Char := Char.ofNat 0x1F600

/-- The face is a number, but the number is no character. -/
theorem char_lost :
    (Value.char face).convert true .int32 = .ok (.int32 0x1F600) ∧
      (Value.int32 0x1F600).convert true .char = .error .overflow ∧
      construct .int32 [letter] 0 = .ok (plain (.convert true letter.expr .int32)) ∧
      construct .char [plain (.convert true letter.expr .int32)] 0 =
        .ok (plain (.convert true (.convert true letter.expr .int32) .char)) ∧
      Expr.eval hostless (.convert true (.convert true letter.expr .int32) .char)
        (standsFor face) = .error .overflow :=
  ⟨rfl, rfl, rfl, rfl, rfl⟩

end Operand
end TypedExpr
