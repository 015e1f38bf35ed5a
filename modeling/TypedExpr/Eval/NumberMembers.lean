import TypedExpr.Builtin
import TypedExpr.Eval.Argument
import TypedExpr.Eval.Reading
import TypedExpr.Value.Text

/-!
# Mathematical functions and conversions by name

Functions on binary numbers go as the arithmetic of doubles does. A conversion to an integer
rounds to the nearest one, of two to the even one, and overflows where that does not fit.
-/

namespace TypedExpr

namespace MathMethod

/-- The value is a binary number and not a number. -/
def isNaN : Value → Bool
  | .single x => (Binary.float32Key? x).isNone
  | .double x => (Binary.floatKey? x).isNone
  | _ => false

/-- The one of two values that is on the side `keep` of the other, or the first. A NaN wins. -/
def extreme (keep : Ordering) (a b : Value) : Outcome Value := do
  if isNaN a then return a
  if isNaN b then return b
  let o ← Outcome.ofOption (b.unexpected a.typeOf.toText) (a.compare? b)
  return if o = keep ∨ o = .eq then a else b

def absolute : Value → Outcome Value
  | .integer k n =>
    if k.isSigned then Outcome.ofOption .overflow ((k.ofInt? n.val.natAbs).map (.integer k))
    else .error ((Value.integer k n).unexpected "number")
  | .single x => .ok (.single x.abs)
  | .double x => .ok (.double x.abs)
  | .decimal d => .ok (.decimal d.abs)
  | v => .error (v.unexpected "number")

/-- Round to so many digits behind the point, a half to the even neighbour. -/
def roundTo (x : Float) (digits : Int) : Outcome Value :=
  if digits < 0 ∨ 15 < digits then
    .error (.invalidArgument "Rounding digits must be between 0 and 15")
  else
    let scale := Binary.floatOfInt (10 ^ digits.toNat)
    .ok (.double (Binary.roundHalfEven (x * scale) / scale))

def call (m : MathMethod) (args : List Value) : Outcome Value :=
  match m with
  | abs => do absolute (← argument args 0)
  | max => do
    let a ← argument args 0
    let b ← argument args 1
    extreme .gt a b
  | min => do
    let a ← argument args 0
    let b ← argument args 1
    extreme .lt a b
  | round => do
    let x ← floatArgument args 0
    let digits ← args[1]?.mapM Value.asInt32
    roundTo x (digits.getD 0)
  | floor => do return .double (← floatArgument args 0).floor
  | ceiling => do return .double (← floatArgument args 0).ceil
  | truncate => do return .double (Binary.truncate (← floatArgument args 0))
  | sqrt => do return .double (← floatArgument args 0).sqrt
  | pow => do
    let x ← floatArgument args 0
    let y ← floatArgument args 1
    return .double (x.pow y)

end MathMethod

namespace ConvertMethod

/-- The greatest double that a conversion to an integer accepts, `9.3 * 10 ^ 18`. -/
def greatest : Float := Binary.floatOfInt 9300000000000000000

/-- The integer nearest to a double. -/
def nearestInt (x : Float) : Outcome Int :=
  let x := Binary.roundHalfEven x
  if !(Binary.ofFloat x).isFinite || x.abs > greatest then .error .overflow
  else .ok (Binary.toInt x)

/-- The integer that a value converts to; null is zero. -/
def toIntegral : Value → Outcome Int
  | .null => .ok 0
  | .boolean b => .ok (if b then 1 else 0)
  | .string s =>
    Outcome.ofOption (.invalidFormat s)
      (Read.intWithin? (-2 ^ 127) (2 ^ 127 - 1) (Text.trimChars s.toList))
  | .single x => nearestInt (Binary.widen x)
  | .double x => nearestInt x
  | .decimal d => .ok d.round
  | v => Outcome.ofOption (v.unexpected "Int64") v.toInt?

/-- The word that a value converts to. -/
def toWord (k : IntKind) (v : Value) : Outcome Value := do
  let n ← toIntegral v
  Outcome.ofOption .overflow ((k.ofInt? n).map (.integer k))

def call (m : ConvertMethod) (args : List Value) : Outcome Value := do
  let v ← argument args 0
  match m with
  | toInt32 => toWord .int32 v
  | toInt64 => toWord .int64 v
  | toDouble =>
    match v with
    | .null => return .double 0
    | .string s => Value.read s .double
    | v => return .double (← v.asFloat)
  | toDecimal =>
    match v with
    | .null => return .decimal Decimal.zero
    | .string s => Value.read s .decimal
    | v => Outcome.ofOption .overflow (v.toDecimal?.map .decimal)
  | toText => return .string v.toText
  | toBoolean =>
    match v with
    | .null => return .boolean false
    | .integer .int32 n => return .boolean (n.val != 0)
    | v => Value.read (← v.asText) .boolean

end ConvertMethod
end TypedExpr
