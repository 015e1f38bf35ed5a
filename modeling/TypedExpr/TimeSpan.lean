import TypedExpr.Binary.Notation
import TypedExpr.Binary.Reader

/-!
# Time spans

A time span is a signed number of nanoseconds, bounded so that its milliseconds fit sixty-three
bits. Its parts are taken toward zero: all parts of a negative span are negative or zero. It is
written `[-][d.]hh:mm:ss[.fffffff]`.
-/

namespace TypedExpr

/-- A duration in nanoseconds. -/
structure TimeSpan where
  nanos : Int
  within : nanos.natAbs ≤ 9223372036854775807000000
  deriving DecidableEq, Repr

namespace TimeSpan

/-- The span of so many nanoseconds, if it is in range. -/
def ofNanos? (nanos : Int) : Option TimeSpan :=
  if h : nanos.natAbs ≤ 9223372036854775807000000 then some ⟨nanos, h⟩ else none

/-- The span of so many milliseconds, if it is in range. -/
def ofMilliseconds? (n : Int) : Option TimeSpan := ofNanos? (n * 10 ^ 6)

/-- The span of so many seconds, if it is in range. -/
def ofSeconds? (n : Int) : Option TimeSpan := ofNanos? (n * 10 ^ 9)

def zero : TimeSpan := ⟨0, by decide⟩

/-- The same time in the other direction. -/
def neg (s : TimeSpan) : TimeSpan := ⟨-s.nanos, by have := s.within; omega⟩

def abs (s : TimeSpan) : TimeSpan := ⟨s.nanos.natAbs, by have := s.within; omega⟩

def add? (s t : TimeSpan) : Option TimeSpan := ofNanos? (s.nanos + t.nanos)

def sub? (s t : TimeSpan) : Option TimeSpan := ofNanos? (s.nanos - t.nanos)

def seconds (s : TimeSpan) : Int := s.nanos.tdiv (10 ^ 9)

/-- What remains of the last second, in nanoseconds. -/
def subsecond (s : TimeSpan) : Int := s.nanos.tmod (10 ^ 9)

def days (s : TimeSpan) : Int := s.seconds.tdiv 86400

/-- The hours beyond whole days. -/
def hourPart (s : TimeSpan) : Int := (s.seconds.tdiv 3600).tmod 24

def minutePart (s : TimeSpan) : Int := (s.seconds.tdiv 60).tmod 60

def secondPart (s : TimeSpan) : Int := s.seconds.tmod 60

def millisecondPart (s : TimeSpan) : Int := (s.nanos.tdiv (10 ^ 6)).tmod 1000

/-- Intervals of a hundred nanoseconds, wrapped to sixty-four bits. -/
def ticks (s : TimeSpan) : Int :=
  Int.bmod (s.seconds * 10000000 + s.subsecond.tdiv 100) (2 ^ 64)

def totalMilliseconds (s : TimeSpan) : Float :=
  Binary.floatOfInt s.seconds * 1000.0 + Binary.floatOfInt s.subsecond / 1000000.0

def padded (width n : Nat) : List Char :=
  let digits := Binary.digitsOf n
  Binary.zeros (width - digits.length) ++ digits

/-- The text of a span. The fraction is written to the microsecond, and only when the span in
microseconds fits sixty-three bits. -/
def toText (s : TimeSpan) : String :=
  let length := s.abs
  let micros := length.nanos.natAbs / 1000
  let fraction := if micros < 2 ^ 63 then micros % 1000000 * 10 else 0
  let days := length.days.natAbs
  String.ofList <|
    (if s.nanos < 0 then ['-'] else []) ++
    (if days > 0 then Binary.digitsOf days ++ ['.'] else []) ++
    padded 2 length.hourPart.natAbs ++ ':' :: padded 2 length.minutePart.natAbs ++
    ':' :: padded 2 length.secondPart.natAbs ++
    (if fraction > 0 then '.' :: padded 7 fraction else [])

def field? (cs : List Char) : Option Int := Read.intWithin? (-2 ^ 63) (2 ^ 63 - 1) cs

/-- A fraction of a second of at most seven digits, in nanoseconds. -/
def fraction? (digits : List Char) : Option Int :=
  if digits.length > 7 || !digits.all Text.isDigit then none
  else some (Read.natOfDigits (digits ++ Binary.zeros (9 - digits.length)))

/-- The nanoseconds of `hh:mm[:ss[.fffffff]]`. Only the upper bounds of the fields are checked,
and the seconds are added up in sixty-four bits. -/
def clock? (cs : List Char) : Option (TimeSpan × TimeSpan) := do
  let (hours, minutes, seconds) ← match Text.splitAll ':' cs with
    | [h, m] => some (h, m, ['0'])
    | [h, m, s] => some (h, m, s)
    | _ => none
  let hours ← field? hours
  let minutes ← field? minutes
  let (whole, fraction) := (Text.splitFirst? '.' seconds).getD (seconds, [])
  let whole ← field? whole
  if hours > 23 || minutes > 59 || whole > 59 then none
  else
    let nanos ← fraction? fraction
    let seconds ← ofSeconds? (Int.bmod (hours * 3600 + minutes * 60 + whole) (2 ^ 64))
    return (seconds, ← ofNanos? nanos)

/-- Read `[-]d` or `[-][d.]hh:mm[:ss[.fffffff]]`. -/
def ofText? (cs : List Char) : Option TimeSpan := do
  let (negative, rest) := match cs with
    | '-' :: rest => (true, rest)
    | _ => (false, cs)
  let total ← match Text.splitFirst? ':' rest with
    | none => ofDays? (← field? rest)
    | some (head, _) =>
      let (days, clock) ← match Text.splitFirst? '.' head with
        | some (d, _) => (field? d).map (·, rest.drop (d.length + 1))
        | none => some (0, rest)
      let (seconds, fraction) ← clock? clock
      let total ← (← ofDays? days).add? seconds
      total.add? fraction
  return if negative then total.neg else total
where
  ofDays? (n : Int) : Option TimeSpan := ofSeconds? (n * 86400)

end TimeSpan
end TypedExpr
