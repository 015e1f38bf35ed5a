import TypedExpr.Eval
import TypedExpr.Proofs.Formed
import TypedExpr.Proofs.SafeTables
import TypedExpr.Proofs.Types

/-! # Operators are safe

What the signatures of an operator say about its operands is what the operator relies on. An operand
that is null makes the result null where that is possible, so that the operators have to be looked
at on values of types without null only. Not all operands of an ordering have an order: that of
binary numbers is partial, and an `Object` can be anything.
-/

namespace TypedExpr

open Outcome Value

variable {texts : Prop} {a b v : Value} {s t : Ty}

namespace Value.Conforms

theorem of_nonNullable (h : v.Conforms texts t.nonNullable) : v.Conforms texts t := by
  cases t with
  | nullable inner => exact .nullable h
  | _ => exact h

/-- A value of a value type is null only if the type has null. -/
theorem nullable_or_present (h : v.Conforms texts t) (ht : t.isValueType) :
    v = .null ∧ t.isNullable ∨ v.isNull = false ∧ v.Conforms texts t.nonNullable := by
  cases v with
  | null =>
      refine .inl ⟨rfl, ?_⟩
      cases h with
      | object => cases ht
      | null h => simpa [ht] using h
      | nullable => rfl
      | scalar _ hn _ => cases hn
  | _ =>
      rcases h.null_or_nonNullable with ⟨null, -⟩ | h
      · cases null
      · exact .inr ⟨rfl, h⟩

end Value.Conforms

/-! ## Arithmetic -/

namespace BinaryOp

/-- The operators that compute. -/
def isArithmetic : BinaryOp → Bool
  | add | subtract | multiply | divide | modulo => true
  | _ => false

/-- The operator computes with operands of these types. Null apart, they are those of a
    signature. -/
def computes : BinaryOp → (left right : Ty) → Bool
  | op, .integer k, .integer l => op.isArithmetic && isWide k && k = l
  | op, .single, .single | op, .double, .double | op, .decimal, .decimal => op.isArithmetic
  | .add, .dateTime, .timeSpan | .subtract, .dateTime, .timeSpan
  | .add, .timeSpan, .timeSpan | .subtract, .timeSpan, .timeSpan
  | .subtract, .dateTime, .dateTime => true
  | _, _, _ => false

/-- Operands of arithmetic have null both or neither. -/
theorem computes_of_accepts {op : BinaryOp} (hop : op.isArithmetic)
    (h : (OperatorClass.ofBinary op).Accepts [s, t]) :
    s.isValueType ∧ t.isValueType ∧ s.isNullable = t.isNullable ∧
      op.computes s.nonNullable t.nonNullable := by
  have signature := h.check (OperatorClass.onTwo fun s t =>
    s.isValueType && t.isValueType && s.isNullable == t.isNullable &&
      op.computes s.nonNullable t.nonNullable) (by cases op <;> first | rfl | cases hop)
  simpa [OperatorClass.onTwo, and_assoc] using signature

theorem onWords_safe {op : BinaryOp} (k : IntKind) (m n : Int) (hop : op.isArithmetic) :
    (op.onWords k m n).Safe texts fun v => v.Conforms texts (.integer k) := by
  cases op with
  | add | subtract | multiply => exact .ok (.scalar rfl rfl rfl)
  | divide =>
      simp only [onWords]
      split
      · exact .error .divideByZero
      · exact Safe.ofMap .overflow fun w => .scalar rfl rfl rfl
  | modulo =>
      simp only [onWords]
      split
      · exact .error .divideByZero
      · exact .ok (.scalar rfl rfl rfl)
  | _ => cases hop

theorem onSingles_safe {op : BinaryOp} (x y : Float32) (hop : op.isArithmetic) :
    (op.onSingles x y).Safe texts fun v => v.Conforms texts .single := by
  cases op with
  | add | subtract | multiply | divide | modulo => exact .ok (.scalar rfl rfl rfl)
  | _ => cases hop

theorem onDoubles_safe {op : BinaryOp} (x y : Float) (hop : op.isArithmetic) :
    (op.onDoubles x y).Safe texts fun v => v.Conforms texts .double := by
  cases op with
  | add | subtract | multiply | divide | modulo => exact .ok (.scalar rfl rfl rfl)
  | _ => cases hop

theorem onDecimals_safe {op : BinaryOp} (x y : Decimal) (hop : op.isArithmetic) :
    (op.onDecimals x y).Safe texts fun v => v.Conforms texts .decimal := by
  have result (d : Option Decimal) :
      (onDecimals.result d).Safe texts fun v => v.Conforms texts .decimal :=
    Safe.ofMap .overflow fun _ => .scalar rfl rfl rfl
  cases op with
  | add | subtract | multiply => exact result _
  | divide | modulo =>
      simp only [onDecimals]
      split
      · exact .error .divideByZero
      · exact result _
  | _ => cases hop

theorem arithmetic_present_safe {op : BinaryOp} (h : op.computes s t) (ha : a.Conforms texts s)
    (hb : b.Conforms texts t) :
    (op.arithmetic a b).Safe texts fun v => v.Conforms texts (Operand.resultTy op s t) := by
  unfold computes at h
  split at h
  · rename_i k l
    simp only [Bool.and_eq_true, decide_eq_true_eq] at h
    obtain ⟨⟨hop, wide⟩, rfl⟩ := h
    obtain ⟨m, rfl⟩ := ha.integer
    obtain ⟨n, rfl⟩ := hb.integer
    simpa [arithmetic, wide, Operand.resultTy, Ty.nonNullable] using onWords_safe k m.val n.val hop
  · obtain ⟨x, rfl⟩ := ha.single
    obtain ⟨y, rfl⟩ := hb.single
    simpa [arithmetic, Operand.resultTy, Ty.nonNullable] using onSingles_safe x y h
  · obtain ⟨x, rfl⟩ := ha.double
    obtain ⟨y, rfl⟩ := hb.double
    simpa [arithmetic, Operand.resultTy, Ty.nonNullable] using onDoubles_safe x y h
  · obtain ⟨x, rfl⟩ := ha.decimal
    obtain ⟨y, rfl⟩ := hb.decimal
    simpa [arithmetic, Operand.resultTy, Ty.nonNullable] using onDecimals_safe x y h
  · obtain ⟨x, rfl⟩ := ha.dateTime
    obtain ⟨y, rfl⟩ := hb.timeSpan
    simpa [arithmetic, Operand.resultTy] using checkedDate_safe (x.add? y)
  · obtain ⟨x, rfl⟩ := ha.dateTime
    obtain ⟨y, rfl⟩ := hb.timeSpan
    simpa [arithmetic, Operand.resultTy, Ty.nonNullable] using checkedDate_safe (x.sub? y)
  · obtain ⟨x, rfl⟩ := ha.timeSpan
    obtain ⟨y, rfl⟩ := hb.timeSpan
    exact Safe.ofMap .overflow fun _ => .scalar rfl rfl rfl
  · obtain ⟨x, rfl⟩ := ha.timeSpan
    obtain ⟨y, rfl⟩ := hb.timeSpan
    exact Safe.ofMap .overflow fun _ => .scalar rfl rfl rfl
  · obtain ⟨x, rfl⟩ := ha.dateTime
    obtain ⟨y, rfl⟩ := hb.dateTime
    exact .ok (.scalar rfl rfl rfl)
  · cases h

/-- Arithmetic with a null is null. -/
theorem arithmetic_null (op : BinaryOp) (a : Value) :
    op.arithmetic .null a = .ok .null ∧ op.arithmetic a .null = .ok .null := by
  cases a <;> exact ⟨rfl, rfl⟩

/-- The result has null where the operands have. -/
theorem resultTy_nonNullable {op : BinaryOp} (h : op.computes s.nonNullable t.nonNullable) :
    (Operand.resultTy op s t).nonNullable = Operand.resultTy op s.nonNullable t.nonNullable := by
  have flat : s.nonNullable.nonNullable = s.nonNullable ∧
      t.nonNullable.nonNullable = t.nonNullable ∧ s.nonNullable.isNullable = false := by
    unfold computes at h
    split at h
    all_goals simp_all [Ty.nonNullable, Ty.isNullable]
  simp only [Operand.resultTy, flat]
  split
  · split
    · rfl
    · rfl
  · rfl

theorem arithmetic_safe {op : BinaryOp} (hop : op.isArithmetic)
    (h : (OperatorClass.ofBinary op).Accepts [s, t]) (ha : a.Conforms texts s)
    (hb : b.Conforms texts t) :
    (op.arithmetic a b).Safe texts fun v => v.Conforms texts (Operand.resultTy op s t) := by
  obtain ⟨hs, ht, same, computes⟩ := computes_of_accepts hop h
  have unknown (hn : s.isNullable) : Value.null.Conforms texts (Operand.resultTy op s t) := by
    refine .null (.inr ?_)
    simp only [Operand.resultTy, hn, if_true]
    split
    · rfl
    · exact hn
  rcases ha.nullable_or_present hs with ⟨rfl, hn⟩ | ⟨-, ha⟩
  · rw [(arithmetic_null op b).1]
    exact .ok (unknown hn)
  · rcases hb.nullable_or_present ht with ⟨rfl, hn⟩ | ⟨-, hb⟩
    · rw [(arithmetic_null op a).2]
      exact .ok (unknown (same.trans hn))
    · refine (arithmetic_present_safe computes ha hb).imp fun v hv => .of_nonNullable ?_
      rwa [resultTy_nonNullable computes]

end BinaryOp

/-! ## Operators on one operand -/

namespace UnaryOp

def computes : UnaryOp → Ty → Bool
  | .negate, .int32 | .negate, .int64 | .negate, .single | .negate, .double | .negate, .decimal
  | .not, .boolean => true
  | _, _ => false

theorem computes_of_accepts {op : UnaryOp} (h : (Operand.unaryClass op).Accepts [t]) :
    t.isValueType ∧ op.computes t.nonNullable := by
  have signature := h.check
    (OperatorClass.onOne fun t => t.isValueType && op.computes t.nonNullable)
    (by cases op <;> rfl)
  simpa [OperatorClass.onOne] using signature

theorem apply_safe {op : UnaryOp} (h : (Operand.unaryClass op).Accepts [t])
    (ha : a.Conforms texts t) : (op.apply a).Safe texts fun v => v.Conforms texts t := by
  obtain ⟨ht, computes⟩ := computes_of_accepts h
  rcases ha.nullable_or_present ht with ⟨rfl, hn⟩ | ⟨-, ha⟩
  · cases op <;> exact .ok (.null (.inr hn))
  · refine Safe.imp (P := fun v => v.Conforms texts t.nonNullable) ?_ fun _ => .of_nonNullable
    generalize t.nonNullable = u at ha computes
    unfold UnaryOp.computes at computes
    split at computes
    · obtain ⟨w, rfl⟩ := ha.integer
      exact .ok (.scalar rfl rfl rfl)
    · obtain ⟨w, rfl⟩ := ha.integer
      exact .ok (.scalar rfl rfl rfl)
    · obtain ⟨x, rfl⟩ := ha.single
      exact .ok (.scalar rfl rfl rfl)
    · obtain ⟨x, rfl⟩ := ha.double
      exact .ok (.scalar rfl rfl rfl)
    · obtain ⟨d, rfl⟩ := ha.decimal
      exact .ok (.scalar rfl rfl rfl)
    · obtain ⟨b, rfl⟩ := ha.boolean
      exact .ok (.scalar rfl rfl rfl)
    · cases computes

end UnaryOp

/-! ## And and or -/

/-- Truth values, perhaps unknown. -/
theorem Value.truth?_safe (ht : t.nonNullable = .boolean) (h : v.Conforms texts t) :
    v.truth?.Safe texts fun b => b = none → t.isNullable := by
  have value : t.isValueType := by
    cases t with
    | predefined p => cases p <;> first | rfl | cases ht
    | nullable => rfl
    | _ => cases ht
  rcases h.nullable_or_present value with ⟨rfl, hn⟩ | ⟨-, h⟩
  · exact .ok fun _ => hn
  · rw [ht] at h
    obtain ⟨b, rfl⟩ := h.boolean
    exact .ok nofun

theorem Value.logical_safe {decisive : Bool} {right : Outcome Value} (ht : t.nonNullable = .boolean)
    (ha : a.Conforms texts t) (hright : right.Safe texts fun v => v.Conforms texts t) :
    (a.logical decisive right).Safe texts fun v => v.Conforms texts t := by
  have known (b : Bool) : (Value.boolean b).Conforms texts t :=
    .of_nonNullable (by rw [ht]; exact .scalar rfl rfl rfl)
  have unknown (hn : t.isNullable) : Value.null.Conforms texts t := .null (.inr hn)
  refine Safe.bind (truth?_safe ht ha) fun l hl => ?_
  split
  · exact .ok (known _)
  · refine Safe.bind hright fun v hv => Safe.bind (truth?_safe ht hv) fun r hr => .ok ?_
    split
    · exact known _
    · split
      · exact known _
      · exact unknown (hl rfl)
    · exact unknown (hr rfl)

theorem OperatorClass.logic_operands (h : logic.Accepts [s, t]) :
    s = t ∧ t.nonNullable = .boolean := by
  have signature := h.check (onTwo fun s t => s = t && t.nonNullable = .boolean) rfl
  simpa [onTwo] using signature

/-! ## Comparisons -/

/-- Any two values of the type, other than null, have an order. -/
def Ty.isOrdered : Ty → Bool
  | .string | .char | .dateTime | .timeSpan | .decimal | .integer _ | .enum _ => true
  | _ => false

theorem Value.compare?_isSome (ht : t.isOrdered) (ha : a.Conforms texts t)
    (hb : b.Conforms texts t) : a.isNull ∨ b.isNull ∨ (a.compare? b).isSome := by
  unfold Ty.isOrdered at ht
  split at ht
  · rcases ha.string with rfl | ⟨s, rfl⟩
    · exact .inl rfl
    · rcases hb.string with rfl | ⟨t, rfl⟩
      · exact .inr (.inl rfl)
      · exact .inr (.inr rfl)
  · obtain ⟨c, rfl⟩ := ha.char
    obtain ⟨d, rfl⟩ := hb.char
    exact .inr (.inr rfl)
  · obtain ⟨x, rfl⟩ := ha.dateTime
    obtain ⟨y, rfl⟩ := hb.dateTime
    exact .inr (.inr rfl)
  · obtain ⟨x, rfl⟩ := ha.timeSpan
    obtain ⟨y, rfl⟩ := hb.timeSpan
    exact .inr (.inr rfl)
  · obtain ⟨x, rfl⟩ := ha.decimal
    obtain ⟨y, rfl⟩ := hb.decimal
    exact .inr (.inr rfl)
  · obtain ⟨m, rfl⟩ := ha.integer
    obtain ⟨n, rfl⟩ := hb.integer
    exact .inr (.inr rfl)
  · obtain ⟨m, rfl⟩ := ha.enum
    obtain ⟨n, rfl⟩ := hb.enum
    exact .inr (.inr rfl)
  · cases ht

theorem BinaryOp.comparison_safe {op : BinaryOp} (hop : op.isComparison)
    (h : Operand.isEquality op ∨ a.isNull ∨ b.isNull ∨ (a.compare? b).isSome) :
    (op.comparison a b).Safe texts fun v => v.Conforms texts .boolean := by
  have ordered (hop : ∀ o, (op.holdsFor? o).isSome)
      (h : a.isNull ∨ b.isNull ∨ (a.compare? b).isSome) :
      (if a.isNull || b.isNull then .ok (.boolean false)
        else Outcome.ofOption (op.mismatch a b)
          (((a.compare? b).bind op.holdsFor?).map .boolean) : Outcome Value).Safe texts
        fun v => v.Conforms texts .boolean := by
    split
    · exact .ok (.scalar rfl rfl rfl)
    · rename_i present
      simp only [Bool.or_eq_true, not_or] at present
      obtain ⟨o, ho⟩ := Option.isSome_iff_exists.mp
        ((h.resolve_left present.1).resolve_left present.2)
      obtain ⟨answer, hanswer⟩ := Option.isSome_iff_exists.mp (hop o)
      rw [ho, Option.bind_some, hanswer]
      exact .ok (.scalar rfl rfl rfl)
  cases op with
  | equal | notEqual => exact .ok (.scalar rfl rfl rfl)
  | less | lessEqual | greater | greaterEqual =>
      exact ordered (fun _ => rfl) (h.resolve_left (by decide))
  | _ => cases hop

namespace Expr

/-- The expression is the word `null`, in whatever type. -/
def IsNullWord (e : Expr) : Prop := ∃ t, e = .constant .null t

/-- The operands have an order between them, as far as their types say: they are neither binary
    numbers nor of type `Object`. Where one of them is the word `null` there is no need for one. -/
def HaveOrder (l r : Expr) : Prop :=
  l.IsNullWord ∨ r.IsNullWord ∨
    l.ty.nonNullable ≠ .single ∧ l.ty.nonNullable ≠ .double ∧ l.ty ≠ .object

end Expr

namespace Ty

/-- A plain enumeration numbers its members by integers. -/
theorem Plain.enum_cases {s : Ty} (hs : s.Plain) (he : s.isEnum) :
    ∃ e k, (s = .enum e ∨ s = .nullable (.enum e)) ∧ e.underlying = .integer k := by
  cases hs with
  | enum hu => exact ⟨_, _, .inl rfl, hu⟩
  | nullable inner _ _ =>
      cases inner with
      | enum hu => exact ⟨_, _, .inr rfl, hu⟩
      | _ => cases he
  | _ => cases he

/-- An enumeration goes by itself to an integral type or to `Object`, and to nothing else. -/
theorem isOrdered_of_enum {s t : Ty} (hs : s.Plain) (he : s.isEnum) (h : s.convertsTo t)
    (hobject : t ≠ .object) : t.nonNullable.isOrdered := by
  obtain ⟨e, k, hs, under⟩ := hs.enum_cases he
  have number : s.nonNullable = .enum e := by
    rcases hs with rfl | rfl
    · rfl
    · rfl
  by_cases same : s = t
  · rw [← same, number]
    rfl
  · rcases convertsTo_of_enum number under same h with object | ⟨-, rfl⟩ | numbers
    · exact absurd object hobject
    · rfl
    · rw [numbers]
      rfl

end Ty

/-- The operands of a comparison that the grammar makes are equal or not, or have an order, or
    one of them is the word `null`. -/
theorem Expr.Related.ordered {op : BinaryOp} {l r : Expr} (h : Related op l r)
    (hop : op.isComparison) (same : l.ty = r.ty) (plain : l.ty.Plain)
    (parts : ∀ e, (∃ t, l = .convert false e t) ∨ (∃ t, r = .convert false e t) → e.ty.Plain)
    (order : Operand.isEquality op ∨ HaveOrder l r) :
    Operand.isEquality op ∨ l.IsNullWord ∨ r.IsNullWord ∨ l.ty.nonNullable.isOrdered := by
  rcases order with equality | left | right | ⟨single, double, object⟩
  · exact .inl equality
  · exact .inr (.inl left)
  · exact .inr (.inr (.inl right))
  cases h with
  | equality hop => exact .inl hop
  | leftNull => exact .inr (.inl ⟨_, rfl⟩)
  | rightNull => exact .inr (.inr (.inl ⟨_, rfl⟩))
  | enums he =>
      obtain ⟨e, k, hl, -⟩ := plain.enum_cases he
      rcases hl with hl | hl
      · exact .inr (.inr (.inr (by rw [hl]; rfl)))
      · exact .inr (.inr (.inr (by rw [hl]; rfl)))
  | leftEnum he hc =>
      exact .inr (.inr (.inr
        (Ty.isOrdered_of_enum (parts _ (.inl ⟨_, rfl⟩)) he hc object)))
  | rightEnum he hc =>
      exact .inr (.inr (.inr
        (Ty.isOrdered_of_enum (parts _ (.inr ⟨_, rfl⟩)) he hc object)))
  | signature accepted =>
      by_cases equality : Operand.isEquality op
      · exact .inl equality
      · -- the operator is relational, and its signatures are of binary numbers or have an order
        have signature := accepted.check (OperatorClass.onTwo fun s _ =>
          decide (s.nonNullable = .single) || decide (s.nonNullable = .double) ||
            s.nonNullable.isOrdered)
          (by cases op <;> first | rfl | exact absurd rfl equality | cases hop)
        simp only [OperatorClass.onTwo, Bool.or_eq_true, decide_eq_true_eq, single, double,
          false_or] at signature
        exact .inr (.inr (.inr signature))

end TypedExpr
