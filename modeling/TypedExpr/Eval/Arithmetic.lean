import TypedExpr.Decimal.Arithmetic
import TypedExpr.EvalError
import TypedExpr.Operator
import TypedExpr.Value.Order

/-!
# Operators on values

The operands have been brought to one type before. Null makes an arithmetic result null, equals
only null, and is neither less nor greater than anything. Integers wrap, but a division by zero
fails, and so does a quotient that does not fit; decimals, dates and spans of time overflow.
-/

namespace TypedExpr

namespace BinaryOp

/-- The operator has no meaning for these operands. -/
def mismatch (op : BinaryOp) (a b : Value) : EvalError :=
  .unsupported
    ("operator '" ++ op.symbol ++ "' on " ++ a.typeOf.toText ++ " and " ++ b.typeOf.toText)

def notArithmetic (op : BinaryOp) : EvalError := .unsupported ("operator '" ++ op.symbol ++ "'")

/-- Arithmetic on words of one kind. -/
def onWords (op : BinaryOp) (k : IntKind) (a b : Int) : Outcome Value :=
  match op with
  | add => .ok (.integer k (k.wrap (a + b)))
  | subtract => .ok (.integer k (k.wrap (a - b)))
  | multiply => .ok (.integer k (k.wrap (a * b)))
  | divide =>
    if b = 0 then .error .divideByZero
    else Outcome.ofOption .overflow ((k.ofInt? (a.tdiv b)).map (.integer k))
  | modulo =>
    if b = 0 then .error .divideByZero else .ok (.integer k (k.wrap (a.tmod b)))
  | op => .error op.notArithmetic

def onSingles (op : BinaryOp) (a b : Float32) : Outcome Value :=
  match op with
  | add => .ok (.single (a + b))
  | subtract => .ok (.single (a - b))
  | multiply => .ok (.single (a * b))
  | divide => .ok (.single (a / b))
  | modulo => .ok (.single (Binary.float32Remainder a b))
  | op => .error op.notArithmetic

def onDoubles (op : BinaryOp) (a b : Float) : Outcome Value :=
  match op with
  | add => .ok (.double (a + b))
  | subtract => .ok (.double (a - b))
  | multiply => .ok (.double (a * b))
  | divide => .ok (.double (a / b))
  | modulo => .ok (.double (Binary.floatRemainder a b))
  | op => .error op.notArithmetic

def onDecimals (op : BinaryOp) (a b : Decimal) : Outcome Value :=
  match op with
  | add => result (a.add? b)
  | subtract => result (a.sub? b)
  | multiply => result (a.mul? b)
  | divide => if b.isZero then .error .divideByZero else result (a.div? b)
  | modulo => if b.isZero then .error .divideByZero else result (a.rem? b)
  | op => .error op.notArithmetic
where
  result (d : Option Decimal) : Outcome Value := Outcome.ofOption .overflow (d.map .decimal)

/-- A date in the years in which expressions compute. -/
def checkedDate (t : Option DateTime) : Outcome Value :=
  match t with
  | some t => if t.inRange then .ok (.dateTime t) else .error .overflow
  | none => .error .overflow

/-- Kinds of integer that arithmetic is done in; narrower ones are widened first. -/
def isWide : IntKind → Bool
  | .int32 | .uint32 | .int64 | .uint64 => true
  | _ => false

def arithmetic (op : BinaryOp) (a b : Value) : Outcome Value :=
  match a, b with
  | .null, _ | _, .null => .ok .null
  | .integer k m, .integer l n =>
    if k = l ∧ isWide k then op.onWords k m.val n.val else .error (op.mismatch a b)
  | .single x, .single y => op.onSingles x y
  | .double x, .double y => op.onDoubles x y
  | .decimal x, .decimal y => op.onDecimals x y
  | .dateTime t, .timeSpan s =>
    match op with
    | add => checkedDate (t.add? s)
    | subtract => checkedDate (t.sub? s)
    | op => .error (op.mismatch a b)
  | .dateTime t, .dateTime u =>
    if op = subtract then .ok (.timeSpan (t.difference u)) else .error (op.mismatch a b)
  | .timeSpan s, .timeSpan u =>
    match op with
    | add => Outcome.ofOption .overflow ((s.add? u).map .timeSpan)
    | subtract => Outcome.ofOption .overflow ((s.sub? u).map .timeSpan)
    | op => .error (op.mismatch a b)
  | a, b => .error (op.mismatch a b)

/-- The answer of a relational operator to an order, if it is one. -/
def holdsFor? : BinaryOp → Ordering → Option Bool
  | less, o => some o.isLT
  | lessEqual, o => some o.isLE
  | greater, o => some o.isGT
  | greaterEqual, o => some o.isGE
  | _, _ => none

def comparison (op : BinaryOp) (a b : Value) : Outcome Value :=
  match op with
  | equal => .ok (.boolean (a.same b))
  | notEqual => .ok (.boolean !(a.same b))
  | op =>
    if a.isNull || b.isNull then .ok (.boolean false)
    else
      Outcome.ofOption (op.mismatch a b) <|
        ((a.compare? b).bind op.holdsFor?).map .boolean

end BinaryOp

def UnaryOp.apply : UnaryOp → Value → Outcome Value
  | _, .null => .ok .null
  | .not, .boolean b => .ok (.boolean !b)
  | .negate, .integer .int32 n => .ok (.int32 (-n.val))
  | .negate, .integer .int64 n => .ok (.int64 (-n.val))
  | .negate, .single x => .ok (.single (-x))
  | .negate, .double x => .ok (.double (-x))
  | .negate, .decimal d => .ok (.decimal d.neg)
  | .negate, .timeSpan s => .ok (.timeSpan s.neg)
  | op, v => .error (.unsupported (op.name ++ " on " ++ v.typeOf.toText))

end TypedExpr
