/-!
# Predefined members

The names by which the catalog refers to the properties and methods of the predefined types. One
name can stand for several overloads; evaluation goes by the values of the arguments.
-/

namespace TypedExpr

inductive TimeUnit where
  | day
  | hour
  | minute
  | second
  | millisecond
  deriving DecidableEq, Repr

inductive DatePart where
  | year
  | month
  | day
  | hour
  | minute
  | second
  | millisecond
  | dayOfYear
  | date
  | timeOfDay
  | ticks
  deriving DecidableEq, Repr

inductive SpanPart where
  /-- What is left of the next larger unit; for days all of them. -/
  | part (u : TimeUnit)
  /-- The whole span in one unit. -/
  | total (u : TimeUnit)
  | ticks
  deriving DecidableEq, Repr

/-- Properties that are computed from the receiver. -/
inductive Getter where
  | hasValue
  | nullableValue
  | arrayLength
  | stringLength
  | dateTime (p : DatePart)
  | timeSpan (p : SpanPart)
  deriving DecidableEq, Repr

/-- Methods of every value. -/
inductive ObjectMethod where
  | toText
  | equals
  | hashCode
  deriving DecidableEq, Repr

inductive StringMethod where
  | charAt
  | contains
  | startsWith
  | endsWith
  | indexOf
  | substring
  | toUpper
  | toLower
  | trim
  | replace
  | concat
  | compare
  | isNullOrEmpty
  deriving DecidableEq, Repr

inductive CharMethod where
  | isDigit
  | isLetter
  | isWhiteSpace
  | isUpper
  | isLower
  | toUpper
  | toLower
  deriving DecidableEq, Repr

inductive MathMethod where
  | abs
  | max
  | min
  | round
  | floor
  | ceiling
  | truncate
  | sqrt
  | pow
  deriving DecidableEq, Repr

inductive ConvertMethod where
  | toInt32
  | toInt64
  | toDouble
  | toDecimal
  | toText
  | toBoolean
  deriving DecidableEq, Repr

inductive DateTimeMethod where
  | new
  | addUnits (u : TimeUnit)
  | addMonths
  | addYears
  | add
  | subtract
  | daysInMonth
  | isLeapYear
  deriving DecidableEq, Repr

inductive TimeSpanMethod where
  | new
  | ofUnits (u : TimeUnit)
  | add
  | subtract
  | negate
  | duration
  deriving DecidableEq, Repr

inductive Builtin where
  | object (m : ObjectMethod)
  | string (m : StringMethod)
  | char (m : CharMethod)
  | math (m : MathMethod)
  | convert (m : ConvertMethod)
  | dateTime (m : DateTimeMethod)
  | timeSpan (m : TimeSpanMethod)
  | newGuid
  /-- Reading a text as a value of the declared result type. -/
  | parse
  deriving DecidableEq, Repr

/-- What runs when a method is called. -/
inductive MethodBody where
  | builtin (b : Builtin)
  /-- A function of the host, known by its number. -/
  | host (id : Nat)
  /-- Nothing: the method only describes the operands of an operator. -/
  | signature
  deriving DecidableEq, Repr

end TypedExpr
