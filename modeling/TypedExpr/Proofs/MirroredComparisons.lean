import TypedExpr.Proofs.ImplicitConversion
import TypedExpr.Proofs.MirroredOperands
import TypedExpr.Proofs.ValueOrder

/-! # Comparisons in a mirror

A comparison says of two operands what its mirror image says of them with the sides exchanged: one
is accepted where the other is, and they come to one answer. Where a member faces a number, the one
compares two members and the other two numbers, which are in the same order as long as the numbers
are those of members. Texts are compared by a call, whose number changes its sign.
-/

namespace TypedExpr

namespace Value

variable {a b c d v w : Value} {s t : Ty} {e : EnumType} {k : IntKind}

/-- The first value is to the second one as the fourth is to the third. -/
structure Mirrored (a b c d : Value) : Prop where
  same : a.same b = c.same d
  order : c.compare? d = (a.compare? b).map Ordering.swap
  null : (a.isNull || b.isNull) = (c.isNull || d.isNull)

theorem same_comm (a b : Value) : a.same b = b.same a := by
  rw [Bool.eq_iff_iff, same_iff, same_iff]
  exact eq_comm

theorem mirrored_turned (a b : Value) : Mirrored a b b a :=
  ⟨same_comm a b, compare?_swap a b, Bool.or_comm _ _⟩

theorem Mirrored.symm (h : Mirrored a b c d) : Mirrored c d a b where
  same := h.same.symm
  order := by
    rw [h.order]
    cases a.compare? b with
    | none => rfl
    | some o => exact congrArg some Ordering.swap_swap.symm
  null := h.null.symm

/-- Members are in the order of their numbers. -/
theorem mirrored_members {n n' : MemberNumber} {m m' : k.Word} (first : m'.val = n.val)
    (second : n'.val = m.val) :
    Mirrored (.enum e n) (.enum e n') (.integer k m) (.integer k m') where
  same := by
    rw [Bool.eq_iff_iff, same_iff, same_iff]
    simp only [canonical, Canonical.enum.injEq, Canonical.integer.injEq, true_and,
      ← IntKind.Word.val_inj, first, second]
    exact eq_comm
  order := by
    change some (compare m.val m'.val) = some (compare n.val n'.val).swap
    rw [first, second, ← Std.OrientedCmp.eq_swap]
  null := rfl

/-! ## What conversions make of the values of operands -/

theorem convert_null {checked : Bool} (h : Value.null.convert checked t = .ok d) : d = .null := by
  cases t with
  | predefined p => cases p <;> cases h <;> rfl
  | _ => cases h <;> rfl

/-- A reference is passed as it is. -/
theorem convert_reference {checked : Bool} (reference : t.isValueType = false)
    (h : v.convert checked t = .ok d) : d = v := by
  have kept : (if v.isNull then .ok v else v.passed t) = Except.ok d := by
    cases t with
    | nullable | enum => cases reference
    | _ => simpa only [convert, reference, Bool.not_false, if_true] using h
  split at kept
  · cases kept
    rfl
  · unfold passed at kept
    split at kept
    · cases kept
      rfl
    · cases kept

/-- What conforms to a type is null or conforms to the type without null. -/
theorem null_or_conformsTo (h : v.conformsTo t) : v = .null ∨ v.conformsTo t.nonNullable := by
  cases present : v.isNull with
  | true => exact .inl (eq_null present)
  | false => exact .inr (conformsTo_nonNullable present h)

theorem of_conformsTo_enum (type : t.nonNullable = .enum e) (h : v.conformsTo t) :
    v = .null ∨ ∃ n, v = .enum e n := by
  refine (null_or_conformsTo h).imp_right fun h => ?_
  rw [type] at h
  cases v with
  | enum e' n =>
      cases of_decide_eq_true h
      exact ⟨n, rfl⟩
  | _ => cases h

theorem of_conformsTo_integer (type : t.nonNullable = .integer k) (h : v.conformsTo t) :
    v = .null ∨ ∃ m, v = .integer k m := by
  refine (null_or_conformsTo h).imp_right fun h => ?_
  rw [type] at h
  have conforms : v.Conforms False (.integer k) := .of_predefined h
  exact conforms.integer

/-- A value other than null becomes the same in a type with null and in the one without. -/
theorem convert_nonNullable (present : v.isNull = false) (h : v.convert false t = .ok d) :
    v.convert false t.nonNullable = .ok d := by
  cases t with
  | nullable inner => rwa [convert_nullable_of_present present] at h
  | _ => exact h

/-- A member becomes its number. -/
theorem convert_member {n : MemberNumber} (type : t.nonNullable = .integer k)
    (h : (Value.enum e n).convert false t = .ok d) : d = .integer k (k.wrap n.val) := by
  have kept := convert_nonNullable rfl h
  rw [type, convert_unchecked rfl] at kept
  cases kept
  rfl

/-- A number becomes the member with this number. -/
theorem convert_word {m : k.Word} (type : t.nonNullable = .enum e)
    (under : e.underlying = .integer k)
    (h : (Value.integer k m).convert false t = .ok d) :
    d = .enum e (IntKind.int64.wrap m.val) := by
  have kept := convert_nonNullable rfl h
  have word : (Value.integer k m).carried = m.val := rfl
  rw [type, convert_enum_unchecked under rfl, word, IntKind.wrap_word] at kept
  cases kept
  rfl

end Value

/-! ## Answers -/

/-- The same truth value, or an error on either side. -/
def SameAnswer (x y : Outcome Value) : Prop :=
  (∃ b, x = .ok (.boolean b) ∧ y = .ok (.boolean b)) ∨ (∃ e, x = .error e) ∧ ∃ e, y = .error e

namespace BinaryOp

variable {op : BinaryOp} {a b c d : Value}

theorem holdsFor?_mirror (op : BinaryOp) (o : Ordering) :
    op.mirror.holdsFor? o.swap = op.holdsFor? o := by
  cases op <;> cases o <;> rfl

theorem comparison_mirrored (hop : op.isComparison) (h : Value.Mirrored a b c d) :
    SameAnswer (op.comparison a b) (op.mirror.comparison c d) := by
  have relation (r : BinaryOp) (hr : ∀ o, (r.holdsFor? o).isSome) (x y : EvalError) :
      SameAnswer (if a.isNull || b.isNull then .ok (.boolean false)
          else Outcome.ofOption x (((a.compare? b).bind r.holdsFor?).map .boolean))
        (if c.isNull || d.isNull then .ok (.boolean false)
          else Outcome.ofOption y (((c.compare? d).bind r.mirror.holdsFor?).map .boolean)) := by
    rw [← h.null, h.order]
    split
    · exact .inl ⟨false, rfl, rfl⟩
    · cases a.compare? b with
      | none => exact .inr ⟨⟨x, rfl⟩, y, rfl⟩
      | some o =>
          obtain ⟨answer, holds⟩ := Option.isSome_iff_exists.mp (hr o)
          simp only [Option.map_some, Option.bind_some, holdsFor?_mirror, holds]
          exact .inl ⟨answer, rfl, rfl⟩
  cases op with
  | equal => exact .inl ⟨a.same b, rfl, by rw [h.same]; rfl⟩
  | notEqual => exact .inl ⟨!a.same b, rfl, by rw [h.same]; rfl⟩
  | less => exact relation less (fun _ => rfl) _ _
  | lessEqual => exact relation lessEqual (fun _ => rfl) _ _
  | greater => exact relation greater (fun _ => rfl) _ _
  | greaterEqual => exact relation greaterEqual (fun _ => rfl) _ _
  | _ => cases hop

end BinaryOp

/-! ## Texts -/

namespace StringMethod

variable {a b : Value} {o : Ordering}

theorem compareValues_swap (h : compareValues a b = .ok o) : compareValues b a = .ok o.swap := by
  cases a with
  | null => cases b <;> cases h <;> rfl
  | string s =>
      cases b with
      | null =>
          cases h
          rfl
      | string t =>
          cases h
          exact congrArg Except.ok Std.OrientedCmp.eq_swap
      | _ => cases h
  | _ =>
      cases b with
      | null =>
          cases h
          rfl
      | _ => cases h

/-- The number of an order is to zero as the order says. -/
theorem mirrored_orderNumber (o : Ordering) :
    Value.Mirrored (.int32 (orderNumber o)) (.int32 0) (.int32 (orderNumber o.swap))
      (.int32 0) := by
  cases o <;> exact ⟨by decide, by decide, rfl⟩

end StringMethod

namespace Expr

variable {op : BinaryOp} {host : Host} {scope : Scope} {x y : Expr} {a b : Value}

theorem eval_comparison {t : Ty} (hop : op.isComparison) (hx : x.eval host scope = .ok a)
    (hy : y.eval host scope = .ok b) :
    (Expr.binary op x y t).eval host scope = op.comparison a b := by
  cases op with
  | equal | notEqual | less | lessEqual | greater | greaterEqual =>
      simp only [eval, hx, hy]
      rfl
  | _ => cases hop

/-- A comparison of what fails fails. -/
theorem eval_comparison_error {t : Ty} {e : EvalError} (hop : op.isComparison)
    (hx : x.eval host scope = .error e) : (Expr.binary op x y t).eval host scope = .error e := by
  cases op with
  | equal | notEqual | less | lessEqual | greater | greaterEqual =>
      simp only [eval, hx]
      rfl
  | _ => cases hop

theorem eval_order (hx : x.eval host scope = .ok a) (hy : y.eval host scope = .ok b) :
    (Expr.call none .string compareMethod [x, y]).eval host scope =
      (StringMethod.compareValues a b).map fun o => .int32 (StringMethod.orderNumber o) := by
  simp only [eval, evalTarget, evalAll, hx, hy]
  change StringMethod.compare.call .null [a, b] = _
  simp only [StringMethod.call]
  change (StringMethod.compareValues a b >>= fun o => _) = _
  cases StringMethod.compareValues a b <;> rfl

end Expr

namespace Operand

variable {op : BinaryOp} {host : Host} {scope : Scope} {l r l₁ r₁ l₂ r₂ : Operand}
  {v w a b c d : Value}

/-- The operand has the value, which conforms to its type. Where the type is an enumeration, its
members have numbers of 64 bits with a sign, and a member that is the value has one of these. -/
structure Shows (host : Host) (scope : Scope) (o : Operand) (v : Value) : Prop where
  read : o.IsRead
  value : o.expr.eval host scope = .ok v
  conforms : v.conformsTo o.ty
  numbered : ∀ e, o.ty.nonNullable = .enum e → ∃ k, k ≠ IntKind.uint64 ∧ e.underlying = .integer k
  within : ∀ e n k, v = .enum e n → e.underlying = .integer k → k.Holds n.val

/-- What a member becomes where its number is asked for. -/
theorem Shows.member {e : EnumType} {k : IntKind} {t : Ty} (hl : l.Shows host scope v)
    (he : l.ty.nonNullable = .enum e) (under : e.underlying = .integer k)
    (number : t.nonNullable = .integer k) (h : v.convert false t = .ok d) :
    v = .null ∧ d = .null ∨
      ∃ (n : MemberNumber) (m : k.Word), v = .enum e n ∧ d = .integer k m ∧ m.val = n.val := by
  rcases Value.of_conformsTo_enum he hl.conforms with rfl | ⟨n, rfl⟩
  · exact .inl ⟨rfl, Value.convert_null h⟩
  · have holds := hl.within e n k rfl under
    exact .inr ⟨n, _, rfl, Value.convert_member number h, IntKind.wrap_val holds⟩

/-- What a number becomes where a member with this number is asked for, be it as a literal or by a
conversion. -/
theorem Shows.word {e : EnumType} {k : IntKind} {t : Ty} (hr : r.Shows host scope w)
    (number : r.ty.nonNullable = .integer k) (he : t.nonNullable = .enum e)
    (under : e.underlying = .integer k) (short : k ≠ .uint64)
    (brought : r₁ = r.converted t ∨ ∃ (m : k.Word) (text : String),
      r = literal (.integer k m) text ∧
        r₁ = plain (.constant (.enum e (IntKind.int64.wrap m.val)) t))
    (hb : r₁.expr.eval host scope = .ok b) :
    w = .null ∧ b = .null ∨
      ∃ (m : k.Word) (n : MemberNumber), w = .integer k m ∧ b = .enum e n ∧ n.val = m.val := by
  have kept (m : k.Word) : (IntKind.int64.wrap m.val).val = m.val :=
    IntKind.wrap_val (m.holds.of_short short)
  rcases brought with rfl | ⟨m, text, rfl, rfl⟩
  · obtain ⟨w', hw', converted⟩ := Outcome.bind_ok.mp hb
    cases hr.value.symm.trans hw'
    rcases Value.of_conformsTo_integer number hr.conforms with rfl | ⟨m, rfl⟩
    · exact .inl ⟨rfl, Value.convert_null converted⟩
    · exact .inr ⟨m, _, rfl, Value.convert_word he under converted, kept m⟩
  · cases hr.value
    cases hb
    exact .inr ⟨m, _, rfl, rfl, kept m⟩

/-- A member faces a number as the number faces the member. -/
theorem members_mirrored (hl : l.Shows host scope v) (hr : r.Shows host scope w)
    (members : l.ty.isEnum) (different : l.ty ≠ r.ty) (right : r.promote? l.ty true = some r₁)
    (left : l.promote? r.ty true = some l₂) (hb : r₁.expr.eval host scope = .ok b)
    (hd : l₂.expr.eval host scope = .ok d) : Value.Mirrored v b w d := by
  obtain ⟨e, he⟩ := Ty.nonNullable_of_isEnum members
  obtain ⟨k, short, under⟩ := hl.numbered e he
  obtain ⟨rfl, partners⟩ := members_both_ways hl.read hr.read he under short different right left
  obtain ⟨v', hv', converted⟩ := Outcome.bind_ok.mp hd
  cases hl.value.symm.trans hv'
  rcases partners with ⟨rfl, rfl⟩ | ⟨number, brought⟩
  · cases hr.value
    cases hb
    cases Value.convert_reference rfl converted
    exact Value.mirrored_turned v .null
  · rcases hl.member he under number converted with ⟨rfl, rfl⟩ | ⟨n, m', rfl, rfl, first⟩
    · rcases hr.word number he under short brought hb with ⟨rfl, rfl⟩ | ⟨m, n', rfl, rfl, -⟩
      · exact Value.mirrored_turned .null .null
      · exact ⟨rfl, rfl, rfl⟩
    · rcases hr.word number he under short brought hb with ⟨rfl, rfl⟩ | ⟨m, n', rfl, rfl, second⟩
      · exact ⟨rfl, rfl, rfl⟩
      · exact Value.mirrored_members first second

/-- The operands of a comparison and those of its mirror image have mirrored values. -/
theorem Facing.mirrored (h : Facing op l r l₁ r₁ r₂ l₂) (hl : l.Shows host scope v)
    (hr : r.Shows host scope w) (ha : l₁.expr.eval host scope = .ok a)
    (hb : r₁.expr.eval host scope = .ok b) (hc : r₂.expr.eval host scope = .ok c)
    (hd : l₂.expr.eval host scope = .ok d) : Value.Mirrored a b c d := by
  cases h with
  | turned =>
      cases ha.symm.trans hd
      cases hb.symm.trans hc
      exact Value.mirrored_turned a b
  | references equality left right =>
      cases ha.symm.trans hl.value
      cases hc.symm.trans hr.value
      obtain ⟨w', hw', passed⟩ := Outcome.bind_ok.mp hb
      cases hr.value.symm.trans hw'
      cases Value.convert_reference left passed
      obtain ⟨v', hv', passed⟩ := Outcome.bind_ok.mp hd
      cases hl.value.symm.trans hv'
      cases Value.convert_reference right passed
      exact Value.mirrored_turned v w
  | members members different right left =>
      cases ha.symm.trans hl.value
      cases hc.symm.trans hr.value
      rcases members with left' | right'
      · exact members_mirrored hl hr left' different right left hb hd
      · exact (members_mirrored hr hl right' (Ne.symm different) left right hd hb).symm

/-! ## Comparisons -/

section

variable {t u : Token} {o o' : Operand} {both : Operand × Operand}

/-- The token of a comparison matters only where the comparison fails. -/
theorem relate_token (h : relate t op l r = .ok both) : relate u op l r = .ok both := by
  unfold relate relateReferences relateEnums promoteBoth at *
  grind

/-- Operands that have an order are brought to one type. -/
theorem relate_same (hop : op.isComparison) (relation : isEquality op = false)
    (h : relate t op l r = .ok (l₁, r₁)) : l₁.ty = r₁.ty := by
  unfold relate at h
  rw [relation] at h
  simp only [Bool.false_and, Bool.false_eq_true, if_false] at h
  split at h
  · unfold relateEnums at h
    split at h
    · cases h
      assumption
    · split at h
      · rename_i right
        cases h
        exact (promote?_exact right).2.symm
      · rename_i left
        cases h
        exact (promote?_exact left).2
      · cases h
  · exact promoteBoth_same hop h

/-- Neither a member nor what faces it is a text. -/
theorem members_not_text (hl : l.Shows host scope v) (hr : r.Shows host scope w)
    (members : l.ty.isEnum) (different : l.ty ≠ r.ty) (right : r.promote? l.ty true = some r₁)
    (left : l.promote? r.ty true = some l₂) : l.ty ≠ .string ∧ r.ty ≠ .string := by
  obtain ⟨e, he⟩ := Ty.nonNullable_of_isEnum members
  obtain ⟨k, short, under⟩ := hl.numbered e he
  refine ⟨fun text => ?_, fun text => ?_⟩
  · rw [text] at he
    cases he
  · rcases (members_both_ways hl.read hr.read he under short different right left).2 with
      ⟨rfl, -⟩ | ⟨number, -⟩
    · cases text
    · rw [text] at number
      cases number

/-- Texts face texts turned round, and elsewhere there are no texts on either side. -/
theorem Facing.text (h : Facing op l r l₁ r₁ r₂ l₂) (hl : l.Shows host scope v)
    (hr : r.Shows host scope w) (relation : isEquality op = false) :
    r₂ = r₁ ∧ l₂ = l₁ ∨ l₁.ty ≠ .string ∧ r₂.ty ≠ .string := by
  cases h with
  | turned => exact .inl ⟨rfl, rfl⟩
  | references equality => simp [relation] at equality
  | members members different right left =>
      rcases members with left' | right'
      · exact .inr (members_not_text hl hr left' different right left)
      · exact .inr (members_not_text hr hl right' (Ne.symm different) left right).symm

/-- The expression of a comparison between operands of one type. -/
def comparisonOf (op : BinaryOp) (l r : Operand) : Expr :=
  if !isEquality op && l.ty = .string then
    .binary op (.call none .string compareMethod [l.expr, r.expr]) (.constant (.int32 0) .int32)
      .boolean
  else .binary op l.expr r.expr .boolean

theorem comparisonOf_text (relation : isEquality op = false) (text : l.ty = .string) :
    comparisonOf op l r = .binary op (.call none .string compareMethod [l.expr, r.expr])
      (.constant (.int32 0) .int32) .boolean := by
  rw [comparisonOf, relation, text]
  rfl

theorem comparisonOf_plain (plain : isEquality op = true ∨ l.ty ≠ .string) :
    comparisonOf op l r = .binary op l.expr r.expr .boolean := by
  refine if_neg ?_
  rcases plain with equality | type <;> simp [*]

theorem compared_ok : compared t op l r = .ok o ↔
    ∃ l₁ r₁, relate t op l r = .ok (l₁, r₁) ∧ o = plain (comparisonOf op l₁ r₁) := by
  have step : compared t op l r =
      (relate t op l r).map fun both => plain (comparisonOf op both.1 both.2) := by
    unfold compared comparisonOf
    cases relate t op l r with
    | error e => rfl
    | ok both =>
        simp only [Except.map, apply_ite plain, apply_ite Except.ok]
        rfl
  rw [step]
  cases relate t op l r with
  | error e => simp [Except.map]
  | ok both =>
      obtain ⟨l₁, r₁⟩ := both
      simp [Except.map, eq_comm]

theorem texts_answer (hop : op.isComparison) (relation : isEquality op = false)
    (left : l₁.ty = .string) (right : r₁.ty = .string) (ha : l₁.expr.eval host scope = .ok a)
    (hb : r₁.expr.eval host scope = .ok b) :
    SameAnswer ((comparisonOf op l₁ r₁).eval host scope)
      ((comparisonOf op.mirror r₁ l₁).eval host scope) := by
  have mirrored : isEquality op.mirror = false := by rw [BinaryOp.isEquality_mirror, relation]
  have hop' : op.mirror.isComparison := by rwa [BinaryOp.isComparison_mirror]
  rw [comparisonOf_text relation left, comparisonOf_text mirrored right]
  have there := Expr.eval_order ha hb
  have back := Expr.eval_order hb ha
  cases order : StringMethod.compareValues a b with
  | ok o =>
      rw [order] at there
      rw [StringMethod.compareValues_swap order] at back
      rw [Expr.eval_comparison hop there rfl, Expr.eval_comparison hop' back rfl]
      exact BinaryOp.comparison_mirrored hop (StringMethod.mirrored_orderNumber o)
  | error e =>
      cases turned : StringMethod.compareValues b a with
      | ok o => cases order.symm.trans (StringMethod.compareValues_swap turned)
      | error e' =>
          rw [order] at there
          rw [turned] at back
          exact .inr ⟨⟨e, Expr.eval_comparison_error hop there⟩,
            e', Expr.eval_comparison_error hop' back⟩

theorem Facing.answers (h : Facing op l r l₁ r₁ r₂ l₂) (hop : op.isComparison)
    (hl : l.Shows host scope v) (hr : r.Shows host scope w)
    (same : isEquality op = false → l₁.ty = r₁.ty) (ha : l₁.expr.eval host scope = .ok a)
    (hb : r₁.expr.eval host scope = .ok b) (hc : r₂.expr.eval host scope = .ok c)
    (hd : l₂.expr.eval host scope = .ok d) :
    SameAnswer ((comparisonOf op l₁ r₁).eval host scope)
      ((comparisonOf op.mirror r₂ l₂).eval host scope) := by
  have hop' : op.mirror.isComparison := by rwa [BinaryOp.isComparison_mirror]
  have answers := BinaryOp.comparison_mirrored hop (h.mirrored hl hr ha hb hc hd)
  have plain (left : isEquality op = true ∨ l₁.ty ≠ .string)
      (right : isEquality op = true ∨ r₂.ty ≠ .string) :
      SameAnswer ((comparisonOf op l₁ r₁).eval host scope)
        ((comparisonOf op.mirror r₂ l₂).eval host scope) := by
    rw [comparisonOf_plain left, comparisonOf_plain (by rwa [BinaryOp.isEquality_mirror]),
      Expr.eval_comparison hop ha hb, Expr.eval_comparison hop' hc hd]
    exact answers
  cases relation : isEquality op with
  | true => exact plain (.inl relation) (.inl relation)
  | false =>
      rcases h.text hl hr relation with ⟨rfl, rfl⟩ | ⟨left, right⟩
      · by_cases text : l₂.ty = .string
        · exact texts_answer hop relation text ((same relation).symm.trans text) ha hb
        · exact plain (.inr text) (.inr (same relation ▸ text))
      · exact plain (.inr left) (.inr right)

/-- The operands that a comparison has brought to one type have values. -/
def Brings (host : Host) (scope : Scope) (brought : Except Diagnostic (Operand × Operand)) : Prop :=
  ∀ l r, brought = .ok (l, r) →
    (∃ a, l.expr.eval host scope = .ok a) ∧ ∃ b, r.expr.eval host scope = .ok b

theorem compared_accepts : (∃ o, compared t op l r = .ok o) ↔
    ∃ both, relate t op l r = .ok both := by
  constructor
  · rintro ⟨o, h⟩
    obtain ⟨l₁, r₁, related, -⟩ := compared_ok.mp h
    exact ⟨_, related⟩
  · rintro ⟨⟨l₁, r₁⟩, related⟩
    exact ⟨_, compared_ok.mpr ⟨l₁, r₁, related, rfl⟩⟩

/-- A comparison is accepted where its mirror image is. If both operands have values, and keep them
when they are brought to one type, the two come to the same truth value, or both fail. Equality and
its negation are accepted alike, and one is true where the other is false. -/
theorem comparisons_mirrored (t u : Token) (l r : Operand) :
    (∀ op, op.isComparison →
      ((∃ o, compared t op l r = .ok o) ↔ ∃ o, compared u op.mirror r l = .ok o) ∧
      ∀ host scope v w o o', l.Shows host scope v → r.Shows host scope w →
        compared t op l r = .ok o → compared u op.mirror r l = .ok o' →
        Brings host scope (relate t op l r) → Brings host scope (relate u op.mirror r l) →
        SameAnswer (o.expr.eval host scope) (o'.expr.eval host scope)) ∧
    ((∃ o, compared t .equal l r = .ok o) ↔ ∃ o, compared u .notEqual l r = .ok o) ∧
      ∀ host scope o o', compared t .equal l r = .ok o → compared u .notEqual l r = .ok o' →
        Brings host scope (relate t .equal l r) →
        ∃ answer, o.expr.eval host scope = .ok (.boolean answer) ∧
          o'.expr.eval host scope = .ok (.boolean !answer) := by
  refine ⟨fun op hop => ⟨?_, ?_⟩, ?_, ?_⟩
  · rw [compared_accepts, compared_accepts]
    constructor
    · rintro ⟨⟨l₁, r₁⟩, related⟩
      obtain ⟨r₂, l₂, turned, -⟩ := relate_facing hop related
      exact ⟨_, turned⟩
    · rintro ⟨⟨r₂, l₂⟩, related⟩
      obtain ⟨l₁, r₁, turned, -⟩ := relate_facing (by rwa [BinaryOp.isComparison_mirror]) related
      rw [BinaryOp.mirror_mirror] at turned
      exact ⟨_, turned⟩
  · intro host scope v w o o' hl hr accepted accepted' brought brought'
    obtain ⟨l₁, r₁, related, rfl⟩ := compared_ok.mp accepted
    obtain ⟨r₂, l₂, related', rfl⟩ := compared_ok.mp accepted'
    obtain ⟨⟨a, ha⟩, b, hb⟩ := brought l₁ r₁ related
    obtain ⟨⟨c, hc⟩, d, hd⟩ := brought' r₂ l₂ related'
    obtain ⟨r₃, l₃, turned, facing⟩ := relate_facing (u := u) hop related
    cases related'.symm.trans turned
    exact facing.answers hop hl hr (fun relation => relate_same hop relation related) ha hb hc hd
  · rw [compared_accepts, compared_accepts]
    exact ⟨fun ⟨both, related⟩ => ⟨both, relate_token related⟩,
      fun ⟨both, related⟩ => ⟨both, relate_token related⟩⟩
  · intro host scope o o' accepted accepted' brought
    obtain ⟨l₁, r₁, related, rfl⟩ := compared_ok.mp accepted
    obtain ⟨l₂, r₂, related', rfl⟩ := compared_ok.mp accepted'
    obtain ⟨⟨a, ha⟩, b, hb⟩ := brought l₁ r₁ related
    cases related'.symm.trans (relate_token related)
    refine ⟨a.same b, ?_, ?_⟩
    · exact (congrArg (Expr.eval host · scope) (comparisonOf_plain (.inl rfl))).trans
        (Expr.eval_comparison (show BinaryOp.equal.isComparison from rfl) ha hb)
    · exact (congrArg (Expr.eval host · scope) (comparisonOf_plain (.inl rfl))).trans
        (Expr.eval_comparison (show BinaryOp.notEqual.isComparison from rfl) ha hb)

end

/-! ## A member before a number -/

private def phase : EnumType :=
  ⟨1, "Phase", .int32, [("Draft", IntKind.int64.wrap 1), ("Final", IntKind.int64.wrap 2)]⟩

private def draft : Value := .enum phase (IntKind.int64.wrap 1)

private def drafted : Operand := plain (.parameter ⟨0, "p", .enum phase⟩)

private def two : Operand := literal (.int32 2) "2"

private def inDraft : Scope := [(⟨0, "p", .enum phase⟩, draft)]

private def closedHost : Host := fun _ _ _ => .error "no host"

private theorem drafted_shows : drafted.Shows closedHost inDraft draft where
  read := .plain _
  value := rfl
  conforms := by decide
  numbered := by
    rintro e ⟨⟩
    exact ⟨.int32, nofun, rfl⟩
  within := by
    rintro e n k ⟨⟩ ⟨⟩
    exact ⟨by decide, by decide⟩

private theorem ofInteger_two : ofInteger ⟨.integerLiteral, "2", 0⟩ = .ok two := by
  rfl

private theorem two_shows : two.Shows closedHost inDraft (.int32 2) where
  read := .integer ofInteger_two
  value := rfl
  conforms := by decide
  numbered := by
    rintro e ⟨⟩
  within := by
    rintro e n k ⟨⟩

private theorem relate_less : relate ⟨.lessThan, "<", 2⟩ .less drafted two =
    .ok (drafted, plain (.constant (.enum phase (IntKind.int64.wrap 2)) (.enum phase))) := by
  rfl

private theorem relate_greater : relate ⟨.greaterThan, ">", 2⟩ .greater two drafted =
    .ok (two, drafted.converted .int32) := by
  rfl

/-- A draft comes before the member of number 2, and two comes after the number of a draft. -/
theorem comparisons_mirrored_draft :
    ∃ o o', compared ⟨.lessThan, "<", 2⟩ .less drafted two = .ok o ∧
      compared ⟨.greaterThan, ">", 2⟩ .greater two drafted = .ok o' ∧
      o.expr.eval closedHost inDraft = .ok (.boolean true) ∧
      SameAnswer (o.expr.eval closedHost inDraft) (o'.expr.eval closedHost inDraft) := by
  have before := compared_ok.mpr ⟨_, _, relate_less, rfl⟩
  have after := compared_ok.mpr ⟨_, _, relate_greater, rfl⟩
  refine ⟨_, _, before, after, by rfl, ?_⟩
  refine ((comparisons_mirrored ⟨.lessThan, "<", 2⟩ ⟨.greaterThan, ">", 2⟩ drafted two).1 .less
    rfl).2 closedHost inDraft draft (.int32 2) _ _ drafted_shows two_shows before after ?_ ?_
  · intro l r brought
    cases relate_less.symm.trans brought
    exact ⟨⟨_, rfl⟩, _, rfl⟩
  · intro l r brought
    cases relate_greater.symm.trans brought
    exact ⟨⟨_, rfl⟩, _, rfl⟩

end Operand
end TypedExpr
