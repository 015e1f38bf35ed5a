import TypedExpr.Proofs.FoldedResults

/-! # What relational operators answer

A relational operator says no where one of its operands is null, and otherwise what the order of
the operands says. Signatures are of types whose values are in order, and an enumeration is ordered
as its numbers are, so that the operator has an answer unless a binary value is no number. Only
where an enumeration faces an `Object` there need not be an order: both become an `Object` then, and
this can be anything.
-/

namespace TypedExpr

namespace Ty

variable {s t : Ty}

/-- If the type is an enumeration, its members have integers for numbers. -/
def Numbered (t : Ty) : Prop := ∀ e, t.nonNullable = .enum e → ∃ k, e.underlying = .integer k

theorem isScale_of_isEnum (h : t.isEnum) : t.nonNullable.isScale := by
  obtain ⟨e, number⟩ := nonNullable_of_isEnum h
  rw [number]
  rfl

/-- An enumeration goes to types with an order and to `Object`. -/
theorem isScale_of_convertsTo (he : s.isEnum) (numbered : s.Numbered) (h : s.convertsTo t) :
    t.nonNullable.isScale ∨ t = .object := by
  obtain ⟨e, number⟩ := nonNullable_of_isEnum he
  obtain ⟨k, under⟩ := numbered e number
  by_cases same : s = t
  · exact .inl (isScale_of_isEnum (same ▸ he))
  · rcases convertsTo_of_enum number under same h with object | ⟨-, rfl⟩ | integer
    · exact .inr object
    · exact .inl rfl
    · rw [integer]
      exact .inl rfl

end Ty

namespace Value

open MathMethod (isNaN)

variable {v w : Value} {t : Ty}

theorem compareFloat?_eq_none {x y : Float} : Binary.compareFloat? x y = none ↔
    Binary.floatKey? x = none ∨ Binary.floatKey? y = none := by
  unfold Binary.compareFloat?
  cases Binary.floatKey? x <;> cases Binary.floatKey? y <;> simp

/-- Nothing is in order with what is no number. -/
theorem compare?_of_isNaN (same : v.typeOf = w.typeOf) (h : isNaN v ∨ isNaN w) :
    v.compare? w = none := by
  cases v with
  | single x =>
      cases w <;> cases same
      rename_i y
      change Binary.compareFloat? (Binary.widen x) (Binary.widen y) = none
      rw [Binary.compareFloat?_widen]
      rcases h with h | h
      · rw [Option.isNone_iff_eq_none.mp h]
        rfl
      · rw [Option.isNone_iff_eq_none.mp h]
        cases Binary.float32Key? x <;> rfl
  | double x =>
      cases w <;> cases same
      exact compareFloat?_eq_none.mpr
        (h.imp Option.isNone_iff_eq_none.mp Option.isNone_iff_eq_none.mp)
  | _ =>
      rcases h with h | h
      · cases h
      · cases w <;> first | cases h | cases same

/-- Values of a type with an order are in order unless one of them is no number. -/
theorem compare?_eq_none_iff (scale : t.nonNullable.isScale) (hv : v.conformsTo t)
    (hw : w.conformsTo t) (hv' : v.isNull = false) (hw' : w.isNull = false) :
    v.compare? w = none ↔ isNaN v ∨ isNaN w := by
  have shows {u : Value} (conforms : u.conformsTo t) (present : u.isNull = false) :
      u.typeOf = t.nonNullable := by
    refine (typeOf_of_conformsTo scale conforms).resolve_left ?_
    rintro rfl
    cases present
  have left := shows hv hv'
  have right := shows hw hw'
  refine ⟨fun none => ?_, compare?_of_isNaN (left.trans right.symm)⟩
  by_contra numbers
  simp only [not_or, Bool.not_eq_true] at numbers
  obtain ⟨o, order⟩ := (totalOn_scale scale).defined ⟨left, numbers.1⟩ ⟨right, numbers.2⟩
  cases none.symm.trans order

end Value

/-! ## What the operators say of values -/

namespace BinaryOp

variable {op : BinaryOp} {v w : Value}

theorem isComparison_of_relational (h : OperatorClass.ofBinary op = .relation) :
    op.isComparison ∧ Operand.isEquality op = false := by
  cases op <;> first | exact ⟨rfl, rfl⟩ | cases h

/-- A relational operator holds of every order or does not. -/
theorem holdsFor?_of_relational (h : OperatorClass.ofBinary op = .relation) (o : Ordering) :
    ∃ b, op.holdsFor? o = some b := by
  cases op <;> first | exact ⟨_, rfl⟩ | cases h

theorem comparison_of_relational (h : OperatorClass.ofBinary op = .relation) (v w : Value) :
    op.comparison v w =
      if v.isNull || w.isNull then .ok (.boolean false)
      else
        Outcome.ofOption (op.mismatch v w) (((v.compare? w).bind op.holdsFor?).map .boolean) := by
  cases op <;> first | rfl | cases h

/-- What a relational operator says of two values: no if one of them is null, and otherwise what
their order says. It fails where they have none. -/
structure Answers (op : BinaryOp) (v w : Value) : Prop where
  null : v.isNull ∨ w.isNull → op.comparison v w = .ok (.boolean false)
  ordered : v.isNull = false → w.isNull = false → ∀ o, v.compare? w = some o →
    ∃ b, op.holdsFor? o = some b ∧ op.comparison v w = .ok (.boolean b)
  unordered : v.isNull = false → w.isNull = false → v.compare? w = none →
    op.comparison v w = .error (op.mismatch v w)

theorem answers_of_relational (h : OperatorClass.ofBinary op = .relation) (v w : Value) :
    op.Answers v w where
  null null := by
    rw [comparison_of_relational h, if_pos (by simpa using null)]
  ordered hv hw o order := by
    obtain ⟨b, holds⟩ := holdsFor?_of_relational h o
    refine ⟨b, holds, ?_⟩
    rw [comparison_of_relational h, if_neg (by simp [hv, hw]), order, Option.bind_some, holds]
    rfl
  unordered hv hw none := by
    rw [comparison_of_relational h, if_neg (by simp [hv, hw]), none]
    rfl

end BinaryOp

namespace StringMethod

variable {v w : Value}

theorem compareValues_of_conformsTo (hv : v.conformsTo .string) (hw : w.conformsTo .string) :
    ∃ o, compareValues v w = .ok o := by
  have text {u : Value} (conforms : u.conformsTo .string) : u = .null ∨ ∃ s, u = .string s :=
    (Value.Conforms.of_predefined conforms : u.Conforms False .string).string
  rcases text hv with rfl | ⟨s, rfl⟩
  · rcases text hw with rfl | ⟨t, rfl⟩ <;> exact ⟨_, rfl⟩
  · rcases text hw with rfl | ⟨t, rfl⟩ <;> exact ⟨_, rfl⟩

/-- The number of an order is to zero as the order says. -/
theorem compare?_orderNumber (o : Ordering) :
    (Value.int32 (orderNumber o)).compare? (.int32 0) = some o := by
  cases o <;> decide

end StringMethod

/-! ## What they bring their operands to -/

namespace Operand

open MathMethod (isNaN)

variable {t : Token} {op : BinaryOp} {o o' l r l₁ r₁ : Operand} {target : Ty}

/-- One operand is an `Object`, and the other is of an enumeration. -/
def MemberFacesObject (l r : Operand) : Prop :=
  l.ty.isEnum ∧ r.ty = .object ∨ l.ty = .object ∧ r.ty.isEnum

/-- An operand beside an enumeration, or of one, is brought to a type with an order. Only a member
can become an `Object`. -/
theorem promote?_isScale (ho : o.IsRead) (numbered : o.ty.Numbered)
    (members : o.ty.isEnum ∨ target.isEnum) (h : o.promote? target true = some o') :
    target.nonNullable.isScale ∨ target = .object ∧ o.ty.isEnum := by
  rcases members with own | other
  · by_cases same : o.ty = target
    · exact .inl (Ty.isScale_of_isEnum (same ▸ own))
    · have unread : o.asLiteralOf? target = none := asLiteralOf?_unmarked (ho.mark_of_isEnum own)
      obtain ⟨converts, -⟩ := promote?_converted unread same h
      exact (Ty.isScale_of_convertsTo own numbered converts).imp_right fun object => ⟨object, own⟩
  · exact .inl (Ty.isScale_of_isEnum other)

theorem relateEnums_isScale (members : l.ty.isEnum ∨ r.ty.isEnum) (hl : l.IsRead) (hr : r.IsRead)
    (left : l.ty.Numbered) (right : r.ty.Numbered) (h : relateEnums t l r = .ok (l₁, r₁)) :
    l₁.ty.nonNullable.isScale ∨ l₁.ty = .object ∧ l.MemberFacesObject r := by
  unfold relateEnums at h
  split at h
  · rename_i same
    cases h
    exact .inl (Ty.isScale_of_isEnum (members.elim id (same ▸ ·)))
  · split at h
    · rename_i brought
      cases h
      refine (promote?_isScale hr right members.symm brought).imp_right ?_
      rintro ⟨object, member⟩
      exact ⟨object, .inr ⟨object, member⟩⟩
    · rename_i brought
      cases h
      rw [(promote?_exact brought).2]
      refine (promote?_isScale hl left members brought).imp_right ?_
      rintro ⟨object, member⟩
      exact ⟨object, .inl ⟨member, object⟩⟩
    · cases h

/-- The signatures of relational operators are of types with an order. -/
theorem promoteBoth_isScale (h : promoteBoth .relation t l r = .ok (l₁, r₁)) :
    l₁.ty.nonNullable.isScale := by
  unfold promoteBoth at h
  split at h
  · rename_i found
    cases h
    obtain ⟨hlayer, hm, passed⟩ := Overload.resolveLayers_found found
    exact (passed.accepted hlayer hm).check (OperatorClass.onTwo fun s _ => s.nonNullable.isScale)
      rfl
  · cases h

theorem relate_isScale (relational : OperatorClass.ofBinary op = .relation) (hl : l.IsRead)
    (hr : r.IsRead) (left : l.ty.Numbered) (right : r.ty.Numbered)
    (h : relate t op l r = .ok (l₁, r₁)) :
    l₁.ty.nonNullable.isScale ∨ l₁.ty = .object ∧ l.MemberFacesObject r := by
  unfold relate at h
  rw [(BinaryOp.isComparison_of_relational relational).2, relational] at h
  simp only [Bool.false_and, Bool.false_eq_true, if_false] at h
  split at h
  · rename_i members
    exact relateEnums_isScale (by simpa using members) hl hr left right h
  · exact .inl (promoteBoth_isScale h)

theorem binary_relational (written : t.binaryOp? = some op)
    (relational : OperatorClass.ofBinary op = .relation) :
    binary t l r = compared t op l r := by
  have noText : ¬ (t.kind = .ampersand ∨ t.kind = .plus ∧ (l.ty = .string ∨ r.ty = .string)) := by
    rintro (kind | ⟨kind, -⟩)
    · simp [Token.binaryOp?, kind, Token.isWord] at written
    · simp only [Token.binaryOp?, kind, Option.some.injEq] at written
      subst written
      cases relational
  rw [binary, if_neg noText, written]
  exact if_pos (BinaryOp.isComparison_of_relational relational).1

section

variable {host : Host} {scope : Scope} {v w : Value}

/-- Texts are in the order that the method of their type tells, in which null comes first. -/
theorem eval_texts (relational : OperatorClass.ofBinary op = .relation) (text : l₁.ty = .string)
    (left : l₁.expr.eval host scope = .ok v) (right : r₁.expr.eval host scope = .ok w)
    (hv : v.conformsTo .string) (hw : w.conformsTo .string) :
    ∃ o b, StringMethod.compareValues v w = .ok o ∧ op.holdsFor? o = some b ∧
      (comparisonOf op l₁ r₁).eval host scope = .ok (.boolean b) := by
  obtain ⟨hop, equality⟩ := BinaryOp.isComparison_of_relational relational
  obtain ⟨o, order⟩ := StringMethod.compareValues_of_conformsTo hv hw
  obtain ⟨b, holds, answer⟩ := (BinaryOp.answers_of_relational relational
    (.int32 (StringMethod.orderNumber o)) (.int32 0)).ordered rfl rfl o
    (StringMethod.compare?_orderNumber o)
  refine ⟨o, b, order, holds, ?_⟩
  have number := Expr.eval_order left right
  rw [order] at number
  rw [comparisonOf_text equality text, Expr.eval_comparison hop number rfl, answer]

/-- A relational operator that is accepted brings its operands to one type. This is a type with an
order, or else `Object`, and that only where one operand is an `Object` and the other is of an
enumeration. Of two values of the type the operator says no if one of them is null, and otherwise
what their order says. It fails if they have none, and in a type with an order they have none just
where one of them is no number. So the operator is evaluated, but for texts: these always have an
answer, and null comes before all others. -/
theorem relational_answers (written : t.binaryOp? = some op)
    (relational : OperatorClass.ofBinary op = .relation) (hl : l.IsRead) (hr : r.IsRead)
    (left : l.ty.Numbered) (right : r.ty.Numbered) (accepted : binary t l r = .ok o) :
    ∃ l₁ r₁, relate t op l r = .ok (l₁, r₁) ∧ o = plain (comparisonOf op l₁ r₁) ∧
      l₁.ty = r₁.ty ∧
      (l₁.ty.nonNullable.isScale ∨ l₁.ty = .object ∧ l.MemberFacesObject r) ∧
      ∀ v w, v.conformsTo l₁.ty → w.conformsTo l₁.ty →
        op.Answers v w ∧
        (l₁.ty ≠ .object → v.isNull = false → w.isNull = false →
          (v.compare? w = none ↔ isNaN v ∨ isNaN w)) ∧
        ∀ host scope, l₁.expr.eval host scope = .ok v → r₁.expr.eval host scope = .ok w →
          (l₁.ty ≠ .string → o.expr.eval host scope = op.comparison v w) ∧
          (l₁.ty = .string → ∃ c b, StringMethod.compareValues v w = .ok c ∧
            op.holdsFor? c = some b ∧ o.expr.eval host scope = .ok (.boolean b)) := by
  obtain ⟨hop, equality⟩ := BinaryOp.isComparison_of_relational relational
  rw [binary_relational written relational] at accepted
  obtain ⟨l₁, r₁, related, rfl⟩ := compared_ok.mp accepted
  have type := relate_isScale relational hl hr left right related
  refine ⟨l₁, r₁, related, rfl, relate_same hop equality related, type, ?_⟩
  intro v w hv hw
  refine ⟨BinaryOp.answers_of_relational relational v w, ?_, ?_⟩
  · intro other hv' hw'
    have scale := type.resolve_right fun object => other object.1
    exact Value.compare?_eq_none_iff scale hv hw hv' hw'
  · intro host scope hl₁ hr₁
    refine ⟨fun other => ?_, fun text => ?_⟩
    · change (comparisonOf op l₁ r₁).eval host scope = _
      rw [comparisonOf_plain (.inr other), Expr.eval_comparison hop hl₁ hr₁]
    · rw [text] at hv hw
      exact eval_texts relational text hl₁ hr₁ hv hw

end

private def lessSign : Token := ⟨.lessThan, "<", 2⟩

private def count : Operand := plain (.parameter ⟨0, "n", .int32⟩)

private def limit : Operand := plain (.parameter ⟨1, "m", .nullable .int64⟩)

private def counted (v : Value) : Scope :=
  [(⟨0, "n", .int32⟩, .int32 1), (⟨1, "m", .nullable .int64⟩, v)]

private def bareHost : Host := fun _ _ _ => .error "no host"

/-- One is below two, and not below null. -/
theorem relational_answers_limit : ∃ o, binary lessSign count limit = .ok o ∧
    o.expr.eval bareHost (counted (.int64 2)) = .ok (.boolean true) ∧
    o.expr.eval bareHost (counted .null) = .ok (.boolean false) := by
  have related : relate lessSign .less count limit =
      .ok (count.converted (.nullable .int64), limit) := by
    rfl
  refine ⟨_, rfl, ?_⟩
  have written : lessSign.binaryOp? = some .less := rfl
  obtain ⟨l₁, r₁, brought, -, -, -, answers⟩ := relational_answers (l := count) (r := limit)
    written rfl (.plain _) (.plain _) nofun nofun rfl
  cases related.symm.trans brought
  constructor
  · obtain ⟨said, -, evaluated⟩ := answers (.int64 1) (.int64 2) rfl rfl
    obtain ⟨b, holds, answer⟩ := said.ordered rfl rfl .lt (by decide)
    cases holds
    exact ((evaluated bareHost (counted (.int64 2)) rfl rfl).1 (by decide)).trans answer
  · obtain ⟨said, -, evaluated⟩ := answers (.int64 1) .null rfl rfl
    exact ((evaluated bareHost (counted .null) rfl rfl).1 (by decide)).trans (said.null (.inr rfl))

private def color : EnumType := ⟨1, "Color", .int32, [("Red", IntKind.int64.wrap 0)]⟩

private def colored : Operand := plain (.parameter ⟨0, "x", .enum color⟩)

private def untyped : Operand := plain (.parameter ⟨1, "y", .object⟩)

/-- A member is brought to an `Object` to face one, but has no order with a text. -/
theorem relational_unanswered :
    let red : Value := .enum color (IntKind.int64.wrap 0)
    let a : Value := .string "a"
    binary lessSign colored untyped =
        .ok (plain (.binary .less (.convert false colored.expr .object) untyped.expr .boolean)) ∧
      red.conformsTo colored.ty ∧ a.conformsTo untyped.ty ∧
      red.convert false .object = .ok red ∧
      BinaryOp.less.comparison red a = .error (BinaryOp.less.mismatch red a) :=
  ⟨rfl, rfl, rfl, rfl, rfl⟩

end Operand

end TypedExpr
