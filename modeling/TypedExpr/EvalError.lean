import TypedExpr.Record

/-!
# Evaluation errors

Why a well-formed expression has no value. The causes name types and members by their texts.
-/

namespace TypedExpr

/-- The causes of a failed evaluation. -/
inductive EvalError where
  | nullReference
  | noValue
  | overflow
  | divideByZero
  | indexOutOfRange
  | emptySequence
  | invalidFormat (text : String)
  | invalidArgument (reason : String)
  | invalidCast (source target : String)
  | arityMismatch (expected found : Nat)
  | missingMember (name : String)
  | host (name message : String)
  | unsupported (what : String)
  | record (e : RecordError)
  deriving DecidableEq, Repr

namespace EvalError

def name : EvalError → String
  | nullReference => "NullReference"
  | noValue => "NoValue"
  | overflow => "Overflow"
  | divideByZero => "DivideByZero"
  | indexOutOfRange => "IndexOutOfRange"
  | emptySequence => "EmptySequence"
  | invalidFormat _ => "InvalidFormat"
  | invalidArgument _ => "InvalidArgument"
  | invalidCast .. => "InvalidCast"
  | arityMismatch .. => "ArityMismatch"
  | missingMember _ => "MissingMember"
  | host .. => "Host"
  | unsupported _ => "Unsupported"
  | record e => e.name

def message : EvalError → String
  | nullReference => "Object reference not set to an instance of an object"
  | noValue => "Nullable object must have a value"
  | overflow => "Arithmetic operation resulted in an overflow"
  | divideByZero => "Attempted to divide by zero"
  | indexOutOfRange => "Index was outside the bounds of the array"
  | emptySequence => "Sequence contains no elements"
  | invalidFormat text => "The string '" ++ text ++ "' was not in a correct format"
  | invalidArgument reason => "Invalid argument: " ++ reason
  | invalidCast source target =>
    "Unable to cast a value of type '" ++ source ++ "' to type '" ++ target ++ "'"
  | arityMismatch expected found =>
    "Expected " ++ toString expected ++ " arguments, found " ++ toString found
  | missingMember name => "Member '" ++ name ++ "' has no value on this instance"
  | host name message => "Host member '" ++ name ++ "' failed: " ++ message
  | unsupported what => "'" ++ what ++ "' cannot be evaluated"
  | record e => e.message

def cast (v : Value) (target : Ty) : EvalError := invalidCast v.typeOf.toText target.toText

end EvalError

/-- The outcome of an evaluation. -/
abbrev Outcome (α : Type) := Except EvalError α

/-- The value, or this error where there is none. -/
def Outcome.ofOption {α : Type} (e : EvalError) : Option α → Outcome α
  | some a => .ok a
  | none => .error e

end TypedExpr
