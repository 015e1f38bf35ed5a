import TypedExpr.EvalError
import TypedExpr.Value.Order

/-!
# Conversions of values

Implicit conversions never fail on values of the source type. An explicit conversion to an
integral type is checked: it drops a fraction, and fails with an overflow where the number does
not fit. An unchecked one wraps.
-/

namespace TypedExpr.Value

/-- The integer that a number is, without its fraction. Unchecked, infinities count as the ends
of the integers of 128 bits and a NaN as zero. -/
def toIntegral (v : Value) (target : Ty) (checked : Bool) : Outcome Int :=
  match v with
  | single x => ofBinary (Binary.ofFloat32 x)
  | double x => ofBinary (Binary.ofFloat x)
  | decimal d => .ok d.truncate
  | v => Outcome.ofOption (.cast v target) v.toInt?
where
  ofBinary (x : BinaryValue) : Outcome Int :=
    if checked && !x.isFinite then .error .overflow else .ok x.toInt

/-- The character of a code of 16 bits. Surrogates are no characters. -/
def ofCharCode (n : Int) (checked : Bool) : Outcome Value := do
  let code ← if checked then Outcome.ofOption .overflow ((IntKind.uint16.ofInt? n).map (·.val))
    else pure (IntKind.uint16.wrap n).val
  if code.toNat.isValidChar then return char (Char.ofNat code.toNat) else throw .overflow

/-- The number of a numeric type that an integer becomes. -/
def ofIntegral (n : Int) (checked : Bool) : (target : Ty) → Outcome Value
  | .integer k =>
    if checked then Outcome.ofOption .overflow ((k.ofInt? n).map (integer k))
    else .ok (integer k (k.wrap n))
  | .single => .ok (single (Binary.float32OfInt n))
  | .double => .ok (double (Binary.floatOfInt n))
  | .decimal => Outcome.ofOption .overflow ((Decimal.ofInt? n).map decimal)
  | .char => ofCharCode n checked
  | t => .error (.unsupported ("conversion to " ++ t.toText))

/-- Pass a value on as it is, if it conforms to the target. -/
def passed (v : Value) (target : Ty) : Outcome Value :=
  if v.conformsTo target then .ok v else .error (.cast v target)

def convert (v : Value) (checked : Bool) : (target : Ty) → Outcome Value
  | .nullable inner => if v.isNull then .ok null else v.convert checked inner
  | target =>
    if !target.isValueType then if v.isNull then .ok v else v.passed target
    else if v.isNull then .error .noValue
    else match target with
      | .enum e => do
        let raw ← v.toIntegral target checked
        let n ← ofIntegral raw checked e.underlying
        let n ← Outcome.ofOption (.cast v target) n.toInt?
        return enum e (IntKind.int64.wrap n)
      | .single => do
        let x ← Outcome.ofOption (.cast v target) v.toFloat?
        return single (Binary.narrow x)
      | .double => do
        let x ← Outcome.ofOption (.cast v target) v.toFloat?
        return double x
      | .decimal => Outcome.ofOption .overflow (v.toDecimal?.map decimal)
      | .integer k => do ofIntegral (← v.toIntegral (.integer k) checked) checked (.integer k)
      | .char => do ofIntegral (← v.toIntegral .char checked) checked .char
      | target => v.passed target

end TypedExpr.Value
