import TypedExpr.Builtin
import TypedExpr.Eval.Argument
import TypedExpr.Eval.Arithmetic

/-!
# Members of dates and spans of time

A number of units becomes a span by way of the nearest number of milliseconds. A date that a
method computes lies in the years 1 to 9999.
-/

namespace TypedExpr

namespace TimeUnit

def milliseconds : TimeUnit → Float
  | day => 86400000.0
  | hour => 3600000.0
  | minute => 60000.0
  | second => 1000.0
  | millisecond => 1.0

/-- The span of so many units, to the millisecond. -/
def span (u : TimeUnit) (amount : Float) : Outcome TimeSpan :=
  if (Binary.floatKey? amount).isNone then
    .error (.invalidArgument "The value is not a number")
  else
    let millis := (amount * u.milliseconds).round
    if !(Binary.ofFloat millis).isFinite || millis.abs ≥ Binary.floatOfInt (2 ^ 63) then
      .error .overflow
    else Outcome.ofOption .overflow (TimeSpan.ofMilliseconds? (Binary.toInt millis))

end TimeUnit

def DatePart.get (p : DatePart) (t : DateTime) : Value :=
  match p with
  | year => .int32 t.year
  | month => .int32 t.month
  | day => .int32 t.dayOfMonth
  | hour => .int32 t.hour
  | minute => .int32 t.minute
  | second => .int32 t.secondOfMinute
  | millisecond => .int32 t.millisecond
  | dayOfYear => .int32 t.dayOfYear
  | date => .dateTime t.midnight
  | timeOfDay => .timeSpan t.timeOfDay
  | ticks => .int64 t.ticks

def SpanPart.get (p : SpanPart) (s : TimeSpan) : Value :=
  match p with
  | part .day => .int32 s.days
  | part .hour => .int32 s.hourPart
  | part .minute => .int32 s.minutePart
  | part .second => .int32 s.secondPart
  | part .millisecond => .int32 s.millisecondPart
  | total .millisecond => .double s.totalMilliseconds
  | total u => .double (s.totalMilliseconds / u.milliseconds)
  | ticks => .int64 s.ticks

namespace DateTimeMethod

/-- The date of the given numbers, with or without a time of day. -/
def ofNumbers : List Int → Option DateTime
  | [y, m, d] => inYears y (DateTime.ofParts? y m d 0 0 0)
  | [y, m, d, h, min, s] => inYears y (DateTime.ofParts? y m d h min s)
  | _ => none
where
  inYears (year : Int) (t : Option DateTime) : Option DateTime :=
    if 1 ≤ year ∧ year ≤ 9999 then t else none

/-- The number of days of a month. The month after it must have dates, too. -/
def daysInMonth? (year month : Int) : Option Nat :=
  if Calendar.hasYear year && (month != 12 || Calendar.hasYear (year + 1)) then
    Calendar.daysInMonth? year month
  else none

def call (m : DateTimeMethod) (receiver : Value) (args : List Value) : Outcome Value :=
  match m with
  | new => do
    let numbers ← args.mapM Value.asInt32
    Outcome.ofOption (.invalidArgument "The arguments describe an unrepresentable DateTime")
      ((ofNumbers numbers).map .dateTime)
  | addUnits u => do
    let amount ← floatArgument args 0
    let span ← u.span amount
    let t ← receiver.asDateTime
    BinaryOp.checkedDate (t.add? span)
  | addMonths => do
    let t ← receiver.asDateTime
    let months ← intArgument args 0
    BinaryOp.checkedDate (t.addMonths? months)
  | addYears => do
    let years ← intArgument args 0
    let months ← Outcome.ofOption .overflow (IntKind.int32.ofInt? (years * 12))
    let t ← receiver.asDateTime
    BinaryOp.checkedDate (t.addMonths? months.val)
  | add => do
    let t ← receiver.asDateTime
    let span ← spanArgument args 0
    BinaryOp.checkedDate (t.add? span)
  | subtract => do
    let t ← receiver.asDateTime
    match ← argument args 0 with
    | .dateTime u => return .timeSpan (t.difference u)
    | v => BinaryOp.checkedDate (t.sub? (← v.asTimeSpan))
  | daysInMonth => do
    let year ← intArgument args 0
    let month ← intArgument args 1
    Outcome.ofOption (.invalidArgument "Month must be between 1 and 12")
      ((daysInMonth? year month).map fun n => .int32 n)
  | isLeapYear => do
    let year ← intArgument args 0
    if year < 1 || year > 9999 then
      throw (.invalidArgument "Year must be between 1 and 9999")
    return .boolean (Calendar.isLeapYear year)

end DateTimeMethod

namespace TimeSpanMethod

/-- The span of hours, minutes and seconds, with or without days before them. -/
def ofNumbers : List Int → Outcome TimeSpan
  | [h, m, s] => seconds (h * 3600 + m * 60 + s)
  | [d, h, m, s] => seconds (d * 86400 + h * 3600 + m * 60 + s)
  | _ => .error (.unsupported "TimeSpan constructor")
where
  seconds (n : Int) : Outcome TimeSpan := Outcome.ofOption .overflow (TimeSpan.ofSeconds? n)

/-- The span of so many intervals of a hundred nanoseconds, if the nanoseconds fit 64 bits. -/
def ofTicks (ticks : Int) : Outcome TimeSpan :=
  Outcome.ofOption .overflow
    ((IntKind.int64.ofInt? (ticks * 100)).bind fun nanos => TimeSpan.ofNanos? nanos.val)

def call (m : TimeSpanMethod) (receiver : Value) (args : List Value) : Outcome Value :=
  match m with
  | new =>
    match args with
    | [.integer .int64 ticks] => do return .timeSpan (← ofTicks ticks.val)
    | args => do
      let numbers ← args.mapM Value.asInt32
      return .timeSpan (← ofNumbers numbers)
  | ofUnits u => do
    let amount ← floatArgument args 0
    return .timeSpan (← u.span amount)
  | add => do
    let s ← receiver.asTimeSpan
    let t ← spanArgument args 0
    Outcome.ofOption .overflow ((s.add? t).map .timeSpan)
  | subtract => do
    let s ← receiver.asTimeSpan
    let t ← spanArgument args 0
    Outcome.ofOption .overflow ((s.sub? t).map .timeSpan)
  | negate => do return .timeSpan (← receiver.asTimeSpan).neg
  | duration => do return .timeSpan (← receiver.asTimeSpan).abs

end TimeSpanMethod
end TypedExpr
