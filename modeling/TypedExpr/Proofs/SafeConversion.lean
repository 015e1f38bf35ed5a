import TypedExpr.Eval.Conversion
import TypedExpr.Proofs.Conformance
import TypedExpr.Proofs.Outcome

/-! # Conversions are safe

A value is converted to a type that its own type goes to, or to a type that a text names; in either
case the outcome conforms to that type, or the conversion refuses the value. Value types take in
whatever can be converted to them, whatever it is converted from.
-/

namespace TypedExpr.Value

open Outcome

variable {texts : Prop}

theorem cast_permitted (v : Value) (t : Ty) : (EvalError.cast v t).Permitted texts :=
  .invalidCast _ _

theorem toIntegral_safe (v : Value) (t : Ty) (checked : Bool) :
    (v.toIntegral t checked).Safe texts fun _ => True := by
  have binary (x : BinaryValue) : (toIntegral.ofBinary checked x).Safe texts fun _ => True := by
    simp only [toIntegral.ofBinary]
    split
    · exact .error .overflow
    · exact .ok trivial
  unfold toIntegral
  split
  · exact binary _
  · exact binary _
  · exact .ok trivial
  · exact Safe.ofOption (cast_permitted _ _) fun _ _ => trivial

theorem ofIntegral_integer_safe (n : Int) (checked : Bool) (k : IntKind) :
    (ofIntegral n checked (.integer k)).Safe texts fun v => ∃ w, v = .integer k w := by
  simp only [ofIntegral]
  split
  · exact Safe.ofMap .overflow fun w => ⟨w, rfl⟩
  · exact .ok ⟨_, rfl⟩

theorem ofCharCode_safe (n : Int) (checked : Bool) :
    (ofCharCode n checked).Safe texts fun v => v.Conforms texts .char := by
  have code : (if checked then Outcome.ofOption .overflow ((IntKind.uint16.ofInt? n).map (·.val))
      else pure (IntKind.uint16.wrap n).val : Outcome Int).Safe texts fun _ => True := by
    split
    · exact Safe.ofOption .overflow fun _ _ => trivial
    · exact .ok trivial
  have rest : ∀ code : Int, True →
      (if code.toNat.isValidChar then return char (Char.ofNat code.toNat)
        else throw .overflow : Outcome Value).Safe texts fun v => v.Conforms texts .char := by
    intro code _
    split
    · exact .ok (.scalar rfl rfl rfl)
    · exact .error .overflow
  unfold ofCharCode
  cases checked with
  | true => exact Safe.bind code rest
  | false => exact Safe.bind code rest

/-- Nothing but null and values of its own kind conforms to a predefined type. -/
theorem passed_predefined_safe (v : Value) (p : Predefined) :
    (v.passed (.predefined p)).Safe texts fun u => u.Conforms texts (.predefined p) := by
  simp only [passed]
  split
  · exact .ok (.of_predefined ‹_›)
  · exact .error (cast_permitted _ _)

theorem convert_predefined_safe (v : Value) (checked : Bool) (p : Predefined) :
    (v.convert checked (.predefined p)).Safe texts fun u => u.Conforms texts (.predefined p) := by
  unfold convert
  split
  · rename_i reference
    split
    · rename_i null
      cases v with
      | null => exact .ok (.null (.inl (by simpa using reference)))
      | _ => cases null
    · exact passed_predefined_safe v p
  · split
    · exact .error .noValue
    · cases p with
      | integer k =>
          exact Safe.bind (toIntegral_safe v _ checked) fun n _ =>
            (ofIntegral_integer_safe n checked k).imp fun u hu => by
              obtain ⟨w, rfl⟩ := hu
              exact .scalar rfl rfl rfl
      | char =>
          exact Safe.bind (toIntegral_safe v _ checked) fun n _ => ofCharCode_safe n checked
      | single =>
          exact Safe.bind (Safe.ofOption (cast_permitted _ _) fun _ _ => trivial) fun x _ =>
            .ok (.scalar rfl rfl rfl)
      | double =>
          exact Safe.bind (Safe.ofOption (cast_permitted _ _) fun _ _ => trivial) fun x _ =>
            .ok (.scalar rfl rfl rfl)
      | decimal => exact Safe.ofMap .overflow fun d => .scalar rfl rfl rfl
      | object | boolean | string | dateTime | timeSpan | guid | math | convert =>
          exact passed_predefined_safe v _

theorem convert_enum_safe {e : EnumType} {k} (v : Value) (checked : Bool)
    (he : e.underlying = .integer k) :
    (v.convert checked (.enum e)).Safe texts fun u => u.Conforms texts (.enum e) := by
  unfold convert
  split
  · contradiction
  · split
    · exact .error .noValue
    · refine Safe.bind (toIntegral_safe v _ checked) fun n _ => ?_
      rw [he]
      refine Safe.bind (ofIntegral_integer_safe n checked k) fun u hu => ?_
      obtain ⟨w, rfl⟩ := hu
      exact .ok (.scalar rfl rfl rfl)

/-- Whatever is converted to a plain value type, the outcome conforms to it. -/
theorem convert_value_safe (v : Value) (checked : Bool) {t : Ty} (ht : t.Plain)
    (hv : t.isValueType) : (v.convert checked t).Safe texts fun u => u.Conforms texts t := by
  induction ht with
  | predefined p => exact convert_predefined_safe v checked p
  | enum he => exact convert_enum_safe v checked he
  | nullable _ value _ ih =>
      unfold convert
      split
      · exact .ok (.null (.inr rfl))
      · exact (ih value).imp fun u hu => .nullable hu
  | record | sequence | array | lambda => cases hv

/-- A reference is passed on as it is. A text cannot be, where its characters are asked for. -/
theorem convert_reference_safe {v : Value} (checked : Bool) {s t : Ty} (ht : t.Plain)
    (hv : t.isValueType = false) (above : t.isAssignableFrom s) (h : v.Conforms texts s)
    (quiet : texts ∨ t.nestsText s = false) :
    (v.convert checked t).Safe texts fun u => u.Conforms texts t := by
  have passes : v.conformsTo t → v.Conforms texts t := by
    intro shown
    by_cases null : v = .null
    · exact null ▸ .null (.inl hv)
    -- a text that shows to conform is asked for as a text or an object
    refine h.above ht above (quiet.imp_right fun quiet => ⟨quiet, ?_⟩)
    rintro ⟨rfl, rfl⟩
    obtain ⟨str, rfl⟩ := h.string.resolve_left null
    cases shown
  have converted : v.convert checked t = if v.isNull then .ok v else v.passed t := by
    unfold convert
    cases ht with
    | nullable => cases hv
    | _ => simp [hv]
  rw [converted]
  split
  · rename_i null
    cases v with
    | null => exact .ok (.null (.inl hv))
    | _ => cases null
  · simp only [passed]
    split
    · exact .ok (passes ‹_›)
    · exact .error (cast_permitted _ _)

/-- A value that goes to a type by itself is safely converted to it. -/
theorem convert_implicit_safe {v : Value} {s t : Ty} (ht : t.Plain) (h : v.Conforms texts s)
    (hc : s.convertsTo t) (quiet : texts ∨ t.nestsText s = false) :
    (v.convert false t).Safe texts fun u => u.Conforms texts t := by
  cases hv : t.isValueType with
  | true => exact convert_value_safe v false ht hv
  | false =>
      refine convert_reference_safe false ht hv ?_ h quiet
      by_cases same : s = t
      · subst same
        exact Ty.isAssignableFrom_refl ht
      · simpa [Ty.convertsTo, same, hv] using hc

/-- A value is safely converted to a type that a text names. -/
theorem convert_named_safe (v : Value) (checked : Bool) {t : Ty} (ht : Source.NamedTy t) :
    (v.convert checked t).Safe texts fun u => u.Conforms texts t := by
  cases ht with
  | predefined p => exact convert_predefined_safe v checked p
  | nullable hv => exact convert_value_safe v checked (.nullable (.predefined _) hv rfl) rfl

end TypedExpr.Value
