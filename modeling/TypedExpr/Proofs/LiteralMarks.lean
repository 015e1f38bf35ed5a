import TypedExpr.Proofs.Derivation
import TypedExpr.Proofs.Integer
import TypedExpr.Proofs.LeafTexts

/-! # Operands with the marks of literals

An operand is marked as a literal by the text that it was written as. The text of an integer literal
is a sign and digits without blanks, and reads as the integer of the literal again, in the kind
that the literal has. No other literal can be read as an integer, and none is of an enumeration.
The rules of the grammar that put operands together leave no mark, so that all operands of a text
are marked as the literals that they are.
-/

namespace TypedExpr

/-! ## Integers in texts -/

namespace Read

variable {cs : List Char} {n low high : Int}

theorem intWithin?_iff : intWithin? low high cs = some n ↔
    int? cs = some n ∧ low ≤ n ∧ n ≤ high ∧ (cs.head? = some '-' → low < 0) := by
  have bounds : (int? cs).filter (fun n => low ≤ n && n ≤ high) = some n ↔
      int? cs = some n ∧ low ≤ n ∧ n ≤ high := by
    simp [Option.filter_eq_some_iff]
  unfold intWithin?
  split
  · rename_i digits
    by_cases signed : low < 0
    · rw [if_pos signed, bounds]
      simp [signed]
    · rw [if_neg signed]
      simp [signed]
  · rename_i plain
    have unsigned : cs.head? ≠ some '-' := by
      intro head
      cases cs with
      | nil => cases head
      | cons c rest => exact plain rest (by rw [Option.some.inj head])
    rw [bounds]
    simp [unsigned]

theorem int?_not_blank (h : int? cs = some n) : ∀ c ∈ cs, Text.isWhiteSpace c = false := by
  have digits {ds : List Char} {m : Nat} (read : nat? ds = some m) :
      ∀ c ∈ ds, Text.isWhiteSpace c = false := by
    intro c hc
    have digit := (digits_of_nat? read).2 c hc
    exact Json.isNumeral_visible (by rw [Json.isNumeral, digit]; rfl)
  unfold int? at h
  split at h
  all_goals
    obtain ⟨_, whole, -⟩ := Option.map_eq_some_iff.mp h
    obtain ⟨m, read, -⟩ := Option.bind_eq_some_iff.mp whole
  · exact List.forall_mem_cons.mpr ⟨Json.isNumeral_visible rfl, digits read⟩
  · exact List.forall_mem_cons.mpr ⟨Json.isNumeral_visible rfl, digits read⟩
  · exact digits read

end Read

/-- A text reads as a word if it is the integer, with a minus sign only where some words have
one. -/
theorem IntKind.ofText?_iff {k : IntKind} {cs : List Char} {w : k.Word} : k.ofText? cs = some w ↔
    Read.int? cs = some w.val ∧ (cs.head? = some '-' → k.low < 0) := by
  rw [ofText?, Option.bind_eq_some_iff]
  constructor
  · rintro ⟨n, read, word⟩
    obtain ⟨value, -, -, sign⟩ := Read.intWithin?_iff.mp read
    rw [ofInt?] at word
    split at word
    · cases word
      exact ⟨value, sign⟩
    · cases word
  · rintro ⟨value, sign⟩
    refine ⟨w.val, Read.intWithin?_iff.mpr ⟨value, w.low_le, w.le_high, sign⟩, ?_⟩
    rw [ofInt?_of_holds w.holds, wrap_word]

namespace Operand

variable {o o' : Operand} {t : Token}

/-! ## Integer literals -/

theorem firstFit_some {n : Int} {kinds : List IntKind} {v : Value}
    (h : integerValue?.firstFit n kinds = some v) :
    ∃ k ∈ kinds, ∃ w : k.Word, v = .integer k w ∧ w.val = n := by
  obtain ⟨k, hk, word⟩ := List.exists_of_findSome?_eq_some h
  obtain ⟨w, hw, rfl⟩ := Option.map_eq_some_iff.mp word
  refine ⟨k, hk, w, rfl, ?_⟩
  rw [IntKind.ofInt?] at hw
  split at hw
  · cases hw
    rfl
  · cases hw

/-- The value of an integer literal is a word that its text reads as. -/
theorem integerValue?_some {text : List Char} {v : Value} (h : integerValue? text = some v) :
    ∃ k ∈ [IntKind.int32, .uint32, .int64, .uint64], ∃ w : k.Word, v = .integer k w ∧
      k.ofText? text = some w := by
  unfold integerValue? at h
  split at h
  · obtain ⟨n, read, first⟩ := Option.bind_eq_some_iff.mp h
    obtain ⟨k, hk, w, rfl, rfl⟩ := firstFit_some first
    obtain ⟨value, -⟩ := Read.intWithin?_iff.mp read
    have signed : ∀ k ∈ [IntKind.int32, .int64],
        k ∈ [IntKind.int32, .uint32, .int64, .uint64] ∧ k.low < 0 := by
      decide
    exact ⟨k, (signed k hk).1, w, rfl, IntKind.ofText?_iff.mpr ⟨value, fun _ => (signed k hk).2⟩⟩
  · rename_i unsigned
    obtain ⟨n, read, first⟩ := Option.bind_eq_some_iff.mp h
    obtain ⟨k, hk, w, rfl, rfl⟩ := firstFit_some first
    obtain ⟨value, -, -, sign⟩ := Read.intWithin?_iff.mp read
    refine ⟨k, hk, w, rfl, IntKind.ofText?_iff.mpr ⟨value, fun minus => ?_⟩⟩
    exact absurd (sign minus) (by decide)

theorem ofInteger_some (h : ofInteger t = .ok o) :
    ∃ k ∈ [IntKind.int32, .uint32, .int64, .uint64], ∃ w : k.Word,
      o = literal (.integer k w) t.text ∧ k.ofText? (Text.trimChars t.text.toList) = some w := by
  unfold ofInteger at h
  split at h
  · rename_i v value
    cases h
    obtain ⟨k, hk, w, rfl, read⟩ := integerValue?_some value
    have visible := Read.int?_not_blank (IntKind.ofText?_iff.mp read).1
    exact ⟨k, hk, w, rfl, by rw [Text.trimChars_of_not_blank visible, read]⟩
  · cases h

/-- An integer literal becomes the member with its number where members have numbers of its kind. -/
theorem asLiteralOf?_member {k : IntKind} {w : k.Word} {text : String} {e : EnumType} {target : Ty}
    (hk : k ∈ [IntKind.int32, .uint32, .int64, .uint64])
    (read : k.ofText? (Text.trimChars text.toList) = some w) (member : target.nonNullable = .enum e)
    (under : e.underlying = .integer k) :
    (literal (.integer k w) text).asLiteralOf? target =
      (IntKind.int64.ofInt? w.val).map (.enum e) := by
  have again : reread? text (.integer k) (.enum e) = Value.ofNumber? text (.enum e) := by
    simp only [List.mem_cons, List.not_mem_nil, or_false] at hk
    rcases hk with rfl | rfl | rfl | rfl <;> rfl
  obtain ⟨id, name, underlying, members⟩ := e
  cases under
  have number : Value.ofNumber? text (.enum ⟨id, name, .integer k, members⟩) =
      (IntKind.int64.ofInt? w.val).map (.enum ⟨id, name, .integer k, members⟩) := by
    simp only [Value.ofNumber?, Value.numberOfType?, Value.ofPredefinedNumber?, read]
    exact Option.map_eq_bind.symm
  change reread? text (.integer k) target.nonNullable = _
  rw [member, again, number]

/-! ## Marks -/

/-- An operand as it is made of a text: what is marked as a literal was written as that literal. -/
inductive IsRead : Operand → Prop where
  | plain (e : Expr) : IsRead (plain e)
  | null : IsRead nullLiteral
  | integer {t : Token} {o : Operand} (h : ofInteger t = .ok o) : IsRead o
  | real {t : Token} {o : Operand} (h : ofReal t = .ok o) : IsRead o
  | quoted {t : Token} {o : Operand} (h : ofQuoted t = .ok o) : IsRead o

/-- A real literal is a binary number. -/
theorem ofReal_ty (h : ofReal t = .ok o) : o.ty = .single ∨ o.ty = .double := by
  unfold ofReal at h
  split at h
  · rename_i v value
    cases h
    unfold realValue? at value
    split at value
    · split at value
      · obtain ⟨x, -, rfl⟩ := Option.map_eq_some_iff.mp value
        exact .inl rfl
      · obtain ⟨x, -, rfl⟩ := Option.map_eq_some_iff.mp value
        exact .inr rfl
    · cases value
  · cases h

/-- A literal between quotes is a character or a text. -/
theorem ofQuoted_ty (h : ofQuoted t = .ok o) : o.ty = .char ∨ o.ty = .string := by
  unfold ofQuoted at h
  dsimp only at h
  split at h
  · split at h
    · cases h
      exact .inl rfl
    · cases h
  · cases h
    exact .inr rfl

/-- The marks of operands: none, that of the word `null`, that of an integer literal, or that of a
literal which is neither an integer nor a member. -/
theorem IsRead.cases_mark (h : o.IsRead) : o.mark = .none ∨ o = nullLiteral ∨
    (∃ k ∈ [IntKind.int32, .uint32, .int64, .uint64], ∃ (w : k.Word) (text : String),
      o = literal (.integer k w) text ∧ k.ofText? (Text.trimChars text.toList) = some w) ∨
    o.ty ∈ [Ty.single, .double, .char, .string] := by
  cases h with
  | plain e => exact .inl rfl
  | null => exact .inr (.inl rfl)
  | integer h =>
      obtain ⟨k, hk, w, rfl, read⟩ := ofInteger_some h
      exact .inr (.inr (.inl ⟨k, hk, w, _, rfl, read⟩))
  | real h => rcases ofReal_ty h with type | type <;> simp [type]
  | quoted h => rcases ofQuoted_ty h with type | type <;> simp [type]

/-- What is of an enumeration has no mark. -/
theorem IsRead.mark_of_isEnum (h : o.IsRead) (he : o.ty.isEnum) : o.mark = .none := by
  rcases h.cases_mark with none | rfl | ⟨k, -, w, text, rfl, -⟩ | type
  · exact none
  · cases he
  · cases he
  · simp only [List.mem_cons, List.not_mem_nil, or_false] at type
    rcases type with type | type | type | type <;> rw [type] at he <;> cases he

/-! ## What has no mark -/

theorem isRead_of_mark (h : o.mark = .none) : o.IsRead := by
  obtain ⟨e, mark⟩ := o
  cases h
  exact .plain e

/-- Operands that are made have no marks. -/
def Unmarked (made : Except Diagnostic Operand) : Prop := ∀ o, made = .ok o → o.mark = .none

theorem Unmarked.ok (e : Expr) : Unmarked (.ok (plain e)) := by
  rintro o ⟨⟩
  rfl

theorem Unmarked.error (d : Diagnostic) : Unmarked (.error d) := nofun

theorem property_unmarked {source : Ty} {target : Option Operand} {name : String} {pos : Nat} :
    Unmarked (property source target name pos) := by
  unfold property
  split
  · exact .ok _
  · exact .error _

theorem method_unmarked {source : Ty} {target : Option Operand} {name : String}
    {args : List Operand} {pos : Nat} : Unmarked (method source target name args pos) := by
  unfold method
  split
  · exact .error _
  · exact .error _
  · split_ifs
    · exact .error _
    · exact .error _
    · exact .ok _

theorem aggregate_unmarked {source : Operand} {item : Parameter} {name : String}
    {args : List Operand} {pos : Nat} : Unmarked (source.aggregate item name args pos) := by
  unfold aggregate
  split
  · exact .error _
  · split
    · exact .ok _
    · exact .error _

theorem index_unmarked {target : Operand} {args : List Operand} {pos : Nat} :
    Unmarked (target.index args pos) := by
  unfold index
  repeat' split
  all_goals first | exact .ok _ | exact .error _

theorem invoke_unmarked {l : Lambda} {args : List Operand} {pos : Nat} :
    Unmarked (invoke l args pos) := by
  unfold invoke
  dsimp only
  split
  · exact .ok _
  · exact .error _

theorem unary_unmarked {op : UnaryOp} : Unmarked (unary t op o) := by
  unfold unary
  split
  · exact .ok _
  · exact .error _

theorem conditional_unmarked {test whenTrue whenFalse : Operand} {pos : Nat} :
    Unmarked (conditional test whenTrue whenFalse pos) := by
  unfold conditional
  repeat' split
  all_goals first | exact .ok _ | exact .error _

theorem Unmarked.related {brought : Except Diagnostic (Operand × Operand)}
    {f : Operand × Operand → Except Diagnostic Operand} (h : ∀ both, Unmarked (f both)) :
    Unmarked (brought >>= f) := by
  cases brought with
  | error d => exact .error d
  | ok both => exact h both

theorem compared_unmarked {op : BinaryOp} {l r : Operand} : Unmarked (compared t op l r) := by
  refine Unmarked.related fun both => ?_
  dsimp only
  split_ifs <;> exact .ok _

theorem binary_unmarked {l r : Operand} : Unmarked (binary t l r) := by
  unfold binary
  split
  · exact .ok _
  · split
    · exact .error _
    · split
      · exact compared_unmarked
      · exact Unmarked.related fun both => .ok _

/-- A conversion to the type of the operand leaves its mark alone. -/
theorem IsRead.convert {target : Ty} {pos : Nat} (h : o.IsRead)
    (converted : o.convert target pos = .ok o') : o'.IsRead := by
  unfold Operand.convert at converted
  dsimp only at converted
  split at converted
  · cases converted
    exact h
  · split_ifs at converted <;>
      · cases converted
        exact .plain _

theorem IsRead.construct {target : Ty} {args : List Operand} {pos : Nat}
    (h : ∀ a ∈ args, a.IsRead) (constructed : Operand.construct target args pos = .ok o) :
    o.IsRead := by
  unfold Operand.construct at constructed
  split at constructed
  · cases constructed
    exact .plain _
  · cases constructed
  · split at constructed
    · exact IsRead.convert (h _ (by simp)) constructed
    · cases constructed

end Operand

open Operand in
/-- What the grammar derives has the mark of a literal only as the literal that it is. -/
theorem Source.Derives.isRead {env : Source.Env} {o : Operand} (h : Derives env o) : o.IsRead := by
  induction h with
  | integer h => exact .integer h
  | real h => exact .real h
  | quoted h => exact .quoted h
  | null => exact .null
  | truth | receiver | value | symbol | projection => exact .plain _
  | construct _ _ ho ih => exact IsRead.construct ih ho
  | invoke _ _ ho => exact isRead_of_mark (invoke_unmarked _ ho)
  | property _ ho => exact isRead_of_mark (property_unmarked _ ho)
  | staticProperty _ ho => exact isRead_of_mark (property_unmarked _ ho)
  | method _ _ ho => exact isRead_of_mark (method_unmarked _ ho)
  | staticMethod _ _ ho => exact isRead_of_mark (method_unmarked _ ho)
  | aggregate _ _ _ ho => exact isRead_of_mark (aggregate_unmarked _ ho)
  | index _ _ ho => exact isRead_of_mark (index_unmarked _ ho)
  | conditional _ _ _ ho => exact isRead_of_mark (conditional_unmarked _ ho)
  | unary _ ho => exact isRead_of_mark (unary_unmarked _ ho)
  | binary _ _ ho => exact isRead_of_mark (binary_unmarked _ ho)

end TypedExpr
