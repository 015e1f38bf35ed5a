import TypedExpr.EvalError
import TypedExpr.Value.Order

/-!
# Arguments of predefined members

A member looks at its receiver and its arguments one at a time, and the first that is missing, null
or of the wrong kind decides the error.
-/

namespace TypedExpr

def argument (args : List Value) (i : Nat) : Outcome Value :=
  Outcome.ofOption (.arityMismatch (i + 1) args.length) args[i]?

namespace Value

/-- A value of another kind than `expected`. -/
def unexpected (v : Value) (expected : String) : EvalError :=
  .invalidCast v.typeOf.toText expected

def asText : Value → Outcome String
  | string s => .ok s
  | null => .error .nullReference
  | v => .error (v.unexpected "String")

def asInt32 : Value → Outcome Int
  | integer .int32 n => .ok n.val
  | null => .error .noValue
  | v => .error (v.unexpected "Int32")

def asFloat : Value → Outcome Float
  | null => .error .noValue
  | v => Outcome.ofOption (v.unexpected "Double") v.toFloat?

def asChar : Value → Outcome Char
  | char c => .ok c
  | null => .error .noValue
  | v => .error (v.unexpected "Char")

def asDateTime : Value → Outcome DateTime
  | dateTime t => .ok t
  | null => .error .nullReference
  | v => .error (v.unexpected "DateTime")

def asTimeSpan : Value → Outcome TimeSpan
  | timeSpan s => .ok s
  | null => .error .nullReference
  | v => .error (v.unexpected "TimeSpan")

end Value

def textArgument (args : List Value) (i : Nat) : Outcome String := do (← argument args i).asText

def intArgument (args : List Value) (i : Nat) : Outcome Int := do (← argument args i).asInt32

def floatArgument (args : List Value) (i : Nat) : Outcome Float := do (← argument args i).asFloat

def charArgument (args : List Value) (i : Nat) : Outcome Char := do (← argument args i).asChar

def spanArgument (args : List Value) (i : Nat) : Outcome TimeSpan := do
  (← argument args i).asTimeSpan

end TypedExpr
