import TypedExpr.TimeSpan

/-!
# Dates

Days are counted from the first of January of the year one in the Gregorian calendar, extended
to both sides. A date and time is a day, a second of the day and the nanoseconds of that second;
a leap second is the second before it, gone on for up to two seconds. Expressions compute within
the years 1 to 9999; texts can name dates far outside.
-/

namespace TypedExpr

namespace Calendar

def isLeapYear (year : Int) : Bool := year % 4 == 0 && (year % 100 != 0 || year % 400 == 0)

def monthLengths (year : Int) : List Nat :=
  [31, if isLeapYear year then 29 else 28, 31, 30, 31, 30, 31, 31, 30, 31, 30, 31]

/-- The first and the last year that have dates at all. -/
def years : Int × Int := (-262143, 262142)

/-- A year that has dates. -/
def hasYear (year : Int) : Bool := years.1 ≤ year && year ≤ years.2

/-- The length of a month, numbered from one. -/
def daysInMonth? (year month : Int) : Option Nat :=
  if month < 1 then none else (monthLengths year)[month.toNat - 1]?

def daysBefore (year : Int) : Int :=
  let y := year - 1
  365 * y + y / 4 - y / 100 + y / 400

/-- The number of a date, if the date exists. -/
def dayNumber? (year month day : Int) : Option Int := do
  let length ← daysInMonth? year month
  if hasYear year && 1 ≤ day && day ≤ length then
    let daysOfEarlierMonths : Nat := ((monthLengths year).take (month.toNat - 1)).foldl (· + ·) 0
    some (daysBefore year + daysOfEarlierMonths + (day - 1))
  else none

/-- The year of a day, and the day's place in the year, counted from zero. -/
def yearOf (day : Int) : Int × Nat :=
  let cycle := day / 146097
  let r := (day % 146097).toNat
  let century := min (r / 36524) 3
  let r := r - 36524 * century
  let four := r / 1461
  let r := r - 1461 * four
  let year := min (r / 365) 3
  (400 * cycle + (100 * century + 4 * four + year + 1 : Nat), r - 365 * year)

/-- The month and the day of the month, both counted from one, of a place in a list of months. -/
def monthOf (place : Nat) : List Nat → Nat × Nat
  | [] => (1, place + 1)
  | length :: rest =>
    if place < length then (1, place + 1)
    else
      let (month, day) := monthOf (place - length) rest
      (month + 1, day)

end Calendar

/-- An instant without a time zone. -/
structure DateTime where
  day : Int
  second : Nat
  nano : Nat
  day_ge : -95746130 ≤ day
  day_le : day ≤ 95745398
  second_lt : second < 86400
  nano_lt : nano < 2000000000
  deriving DecidableEq, Repr

namespace DateTime

open Calendar

def make? (day : Int) (second nano : Nat) : Option DateTime :=
  if h : -95746130 ≤ day ∧ day ≤ 95745398 ∧ second < 86400 ∧ nano < 2000000000 then
    some ⟨day, second, nano, h.1, h.2.1, h.2.2.1, h.2.2.2⟩
  else none

/-- A time of day on a date, if both exist. -/
def ofParts? (year month day hour minute second : Int) : Option DateTime := do
  let number ← dayNumber? year month day
  if 0 ≤ hour && hour < 24 && 0 ≤ minute && minute < 60 && 0 ≤ second && second < 60 then
    make? number (hour * 3600 + minute * 60 + second).toNat 0
  else none

/-- The start of the year one. -/
def minValue : DateTime := ⟨0, 0, 0, by decide, by decide, by decide, by decide⟩

/-- The last interval of a hundred nanoseconds of the year 9999. -/
def maxValue : DateTime :=
  ⟨3652058, 86399, 999999900, by decide, by decide, by decide, by decide⟩

def compare (t u : DateTime) : Ordering :=
  (Ord.compare t.day u.day).then <|
    (Ord.compare t.second u.second).then (Ord.compare t.nano u.nano)

/-- The years in which expressions compute. -/
def inRange (t : DateTime) : Bool :=
  (minValue.compare t).isLE && (t.compare maxValue).isLE

def year (t : DateTime) : Int := (yearOf t.day).1

/-- The day of the year, counted from one. -/
def dayOfYear (t : DateTime) : Nat := (yearOf t.day).2 + 1

def monthAndDay (t : DateTime) : Nat × Nat :=
  let (year, place) := yearOf t.day
  monthOf place (monthLengths year)

def month (t : DateTime) : Nat := t.monthAndDay.1

def dayOfMonth (t : DateTime) : Nat := t.monthAndDay.2

def hour (t : DateTime) : Nat := t.second / 3600

def minute (t : DateTime) : Nat := t.second / 60 % 60

/-- The second, not counting a leap second. -/
def secondOfMinute (t : DateTime) : Nat := t.second % 60

/-- The millisecond; it stays at the last one during a leap second. -/
def millisecond (t : DateTime) : Nat := min (t.nano / 1000000) 999

/-- The start of the day. -/
def midnight (t : DateTime) : DateTime :=
  { t with second := 0, nano := 0, second_lt := by decide, nano_lt := by decide }

/-- The time of day that a span leads to from `second` and `nano`, in seconds from the start of
the day and nanoseconds. A span that ends within a leap second stays there; one that leaves it
does not count it. -/
def advance (second nano : Nat) (s : TimeSpan) : Int × Int :=
  let whole := s.seconds
  let part := s.subsecond
  let plain (second nano : Int) : Int × Int :=
    let total := (second + whole) * 10 ^ 9 + (nano + part)
    (total / 10 ^ 9, total % 10 ^ 9)
  if nano < 1000000000 then plain second nano
  else if whole > 0 ∨ part > 0 ∧ 2000000000 ≤ nano + part then plain second (nano - 1000000000)
  else if whole < 0 then plain (second + 1) (nano - 1000000000)
  else (second, nano + part)

/-- A later instant, or an earlier one for a negative span. -/
def add? (t : DateTime) (s : TimeSpan) : Option DateTime :=
  let (second, nano) := advance t.second t.nano s
  make? (t.day + second / 86400) (second % 86400).toNat nano.toNat

def sub? (t : DateTime) (s : TimeSpan) : Option DateTime := t.add? s.neg

/-- The whole seconds from one time of day to another: a leap second in the earlier one counts. -/
def secondsBetween (t u : DateTime) : Int :=
  (t.second : Int) - u.second +
    (if u.second < t.second ∧ 1000000000 ≤ u.nano then 1
    else if t.second < u.second ∧ 1000000000 ≤ t.nano then -1
    else 0)

/-- The span from `u` to `t`. -/
def difference (t u : DateTime) : TimeSpan :=
  ⟨((t.day - u.day) * 86400 + secondsBetween t u) * 1000000000 + ((t.nano : Int) - u.nano), by
    have := t.day_ge; have := t.day_le; have := u.day_ge; have := u.day_le
    have := t.second_lt; have := u.second_lt; have := t.nano_lt; have := u.nano_lt
    unfold secondsBetween
    split
    · omega
    · split <;> omega⟩

def timeOfDay (t : DateTime) : TimeSpan := t.difference t.midnight

/-- Intervals of a hundred nanoseconds since the start of the year one. -/
def ticks (t : DateTime) : Int := (t.difference minValue).ticks

/-- So many months later, on the same day of the month or on the last one if the month is
shorter. -/
def addMonths? (t : DateTime) (months : Int) : Option DateTime := do
  let (month, day) := t.monthAndDay
  let index := t.year * 12 + (month - 1 : Nat) + months
  let year := index / 12
  let month := index % 12 + 1
  let length ← daysInMonth? year month
  make? (← dayNumber? year month (min day length)) t.second t.nano

end DateTime
end TypedExpr
