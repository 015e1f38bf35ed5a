import TypedExpr.Eval
import TypedExpr.Proofs.DateRange
import TypedExpr.Proofs.Keys
import TypedExpr.Proofs.Outcome
import TypedExpr.Proofs.Promotion

/-! # Dates in values

The dates that stand in a value, at any depth. Where those of their operands lie in the range, those
that operators and conversions give do so too.
-/

namespace TypedExpr

namespace Value

/-- The date stands in the value, at any depth. -/
inductive HasDate (t : DateTime) : Value → Prop where
  | date : HasDate t (.dateTime t)
  | field {r fields v} (mem : v ∈ fields) (h : HasDate t v) : HasDate t (.record r fields)
  | item {items v} (mem : v ∈ items) (h : HasDate t v) : HasDate t (.sequence items)
  | member {id c members items m} (mem : m ∈ members) (h : HasDate t m.2) :
      HasDate t (.hosted id c members items)
  | hostedItem {id c members items v} (mem : v ∈ items) (h : HasDate t v) :
      HasDate t (.hosted id c members (some items))

/-- All dates in the value lie in the range. -/
def InRange (v : Value) : Prop := ∀ t, v.HasDate t → t.inRange

/-- A value without parts that is no date. -/
def isDateless : Value → Bool
  | dateTime _ | record .. | sequence _ | hosted .. => false
  | _ => true

variable {v : Value}

theorem inRange_of_isDateless (h : v.isDateless) : v.InRange := by
  intro t ht
  cases ht <;> cases h

theorem isDateless_of_isWritten (h : v.isWritten) : v.isDateless := by
  cases v <;> first | rfl | cases h

theorem inRange_dateTime {t : DateTime} : (dateTime t).InRange ↔ t.inRange := by
  constructor
  · intro h
    exact h t .date
  · rintro h _ ⟨⟩
    exact h

theorem inRange_record {r : RecordType} {fields : List Value} :
    (record r fields).InRange ↔ ∀ v ∈ fields, v.InRange := by
  constructor
  · intro h v hv t ht
    exact h t (.field hv ht)
  · rintro h t (_ | ⟨hv, ht⟩)
    exact h _ hv t ht

theorem inRange_sequence {items : List Value} :
    (sequence items).InRange ↔ ∀ v ∈ items, v.InRange := by
  constructor
  · intro h v hv t ht
    exact h t (.item hv ht)
  · rintro h t (_ | _ | ⟨hv, ht⟩)
    exact h _ hv t ht

/-- The items of a value have no other dates. -/
theorem InRange.items {items : List Value} (h : v.InRange) (hi : v.items? = some items) :
    ∀ i ∈ items, i.InRange := by
  intro i mem t ht
  cases v with
  | sequence =>
      cases hi
      exact h t (.item mem ht)
  | hosted =>
      cases hi
      exact h t (.hostedItem mem ht)
  | _ => cases hi

end Value

open Value Outcome

/-- The value of an outcome, if it has one, is without parts and no date. -/
abbrev Outcome.Dateless (x : Outcome Value) : Prop := x.Yields (·.isDateless)

theorem Outcome.Dateless.inRange {x : Outcome Value} (h : x.Dateless) : x.Yields InRange :=
  h.imp fun _ => inRange_of_isDateless

/-! ## Operators -/

namespace BinaryOp

/-- A date that is checked is in the range. -/
theorem checkedDate_inRange (o : Option DateTime) :
    (checkedDate o).Yields InRange := by
  cases o with
  | none => exact .error
  | some t => exact .ite (fun h => .ok (inRange_dateTime.mpr (h))) fun _ => .error

theorem onWords_dateless (op : BinaryOp) (k : IntKind) (a b : Int) :
    (op.onWords k a b).Dateless := by
  cases op with
  | add | subtract | multiply => exact .ok rfl
  | divide => exact .ite (fun _ => .error) fun _ => .ofMap fun _ => rfl
  | modulo => exact .ite (fun _ => .error) fun _ => .ok rfl
  | _ => exact .error

theorem onSingles_dateless (op : BinaryOp) (a b : Float32) :
    (op.onSingles a b).Dateless := by
  cases op with
  | add | subtract | multiply | divide | modulo => exact .ok rfl
  | _ => exact .error

theorem onDoubles_dateless (op : BinaryOp) (a b : Float) :
    (op.onDoubles a b).Dateless := by
  cases op with
  | add | subtract | multiply | divide | modulo => exact .ok rfl
  | _ => exact .error

theorem onDecimals_dateless (op : BinaryOp) (a b : Decimal) :
    (op.onDecimals a b).Dateless := by
  cases op with
  | add | subtract | multiply => exact .ofMap fun _ => rfl
  | divide | modulo => exact .ite (fun _ => .error) fun _ => .ofMap fun _ => rfl
  | _ => exact .error

theorem arithmetic_inRange (op : BinaryOp) (a b : Value) :
    (op.arithmetic a b).Yields InRange := by
  unfold arithmetic
  split
  · exact .ok (inRange_of_isDateless rfl)
  · exact .ok (inRange_of_isDateless rfl)
  · exact .ite (fun _ => (op.onWords_dateless _ _ _).inRange) fun _ => .error
  · exact (op.onSingles_dateless _ _).inRange
  · exact (op.onDoubles_dateless _ _).inRange
  · exact (op.onDecimals_dateless _ _).inRange
  · split
    · exact checkedDate_inRange _
    · exact checkedDate_inRange _
    · exact .error
  · exact .ite (fun _ => .ok (inRange_of_isDateless rfl)) fun _ => .error
  · split
    · exact .ofMap fun _ => inRange_of_isDateless rfl
    · exact .ofMap fun _ => inRange_of_isDateless rfl
    · exact .error
  · exact .error

theorem comparison_dateless (op : BinaryOp) (a b : Value) :
    (op.comparison a b).Dateless := by
  unfold comparison
  split
  · exact .ok rfl
  · exact .ok rfl
  · exact .ite (fun _ => .ok rfl) fun _ => .ofMap fun _ => rfl

end BinaryOp

theorem UnaryOp.apply_dateless (op : UnaryOp) (v : Value) :
    (op.apply v).Dateless := by
  unfold apply
  split
  all_goals first | exact .ok rfl | exact .error

theorem Value.logical_dateless (left : Value) (decisive : Bool) (right : Outcome Value) :
    (left.logical decisive right).Dateless := by
  refine .andThen fun l => .ite (fun _ => .ok rfl) fun _ => .andThen fun v => .andThen fun r => ?_
  refine .ok ?_
  split
  · rfl
  · split <;> rfl
  · rfl

/-! ## Conversions -/

namespace Value

theorem ofCharCode_dateless (n : Int) (checked : Bool) : (ofCharCode n checked).Dateless := by
  have character (code : Int) : Dateless
      (if code.toNat.isValidChar then pure (char (Char.ofNat code.toNat)) else throw .overflow) :=
    .ite (fun _ => .ok rfl) fun _ => .error
  exact .ite (fun _ => .andThen character) fun _ => .andThen character

theorem ofIntegral_dateless (n : Int) (checked : Bool) (t : Ty) :
    (ofIntegral n checked t).Dateless := by
  unfold ofIntegral
  split
  · exact .ite (fun _ => .ofMap fun _ => rfl) fun _ => .ok rfl
  · exact .ok rfl
  · exact .ok rfl
  · exact .ofMap fun _ => rfl
  · exact ofCharCode_dateless n checked
  · exact .error

theorem passed_inRange {v : Value} (h : v.InRange) (t : Ty) : (v.passed t).Yields InRange :=
  .ite (fun _ => .ok h) fun _ => .error

/-- A conversion makes no dates. -/
theorem convert_inRange {v : Value} (h : v.InRange) (checked : Bool) :
    ∀ t : Ty, (v.convert checked t).Yields InRange
  | .nullable inner => by
      rw [convert]
      exact .ite (fun _ => .ok (inRange_of_isDateless rfl)) fun _ => convert_inRange h checked inner
  | .enum e => by
      simp only [convert, Ty.isValueType, Bool.not_true, Bool.false_eq_true, if_false]
      refine .ite (fun _ => .error) fun _ => .andThen fun raw => ?_
      exact .andThen fun n => .andThen fun m => .ok (inRange_of_isDateless rfl)
  | .predefined p => by
      cases p with
      | object | string | math | convert =>
          refine .ite (fun _ => ?_) fun other => absurd rfl other
          exact .ite (fun _ => .ok h) fun _ => passed_inRange h _
      | _ =>
          simp only [convert, Ty.isValueType, Bool.not_true, Bool.false_eq_true, if_false]
          refine .ite (fun _ => .error) fun _ => ?_
          first
            | exact passed_inRange h _
            | exact .ofMap fun _ => inRange_of_isDateless rfl
            | exact .andThen fun x => .ok (inRange_of_isDateless rfl)
            | exact .andThen fun n => (ofIntegral_dateless n checked _).inRange
  | .record _ | .cls _ | .sequence _ | .array _ | .lambda .. =>
      .ite (fun _ => .ite (fun _ => .ok h) fun _ => passed_inRange h _)
        fun other => absurd rfl other

end Value

end TypedExpr
