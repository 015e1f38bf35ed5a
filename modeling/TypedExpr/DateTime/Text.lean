import TypedExpr.DateTime

/-!
# Texts of dates

A format is a list of items: letters that stand for themselves, blanks, the fields of a date and
a fraction of a second. Each format writes and reads. Reading is more liberal than writing: blanks
may stand before any field and be missing where one is written, leading zeros may be missing, a
year with a sign may have any number of digits, and a second of sixty is a leap second.
-/

namespace TypedExpr.DateTime

/-- The numbers of a date and time. -/
inductive Field where
  | year
  | month
  | day
  | hour
  | minute
  | second
  deriving DecidableEq, Repr

/-- One part of a format. -/
inductive FormatItem where
  | literal (c : Char)
  | blank
  | field (f : Field)
  /-- A point and the fraction of the second in groups of three digits, or nothing for zero. -/
  | fraction
  /-- A point and nine digits. -/
  | nanoseconds
  deriving DecidableEq, Repr

abbrev Format := List FormatItem

namespace Format

def isoDate : Format :=
  [.field .year, .literal '-', .field .month, .literal '-', .field .day]

def slashDate : Format :=
  [.field .month, .literal '/', .field .day, .literal '/', .field .year]

def time : Format :=
  [.field .hour, .literal ':', .field .minute, .literal ':', .field .second]

/-- Date and time with a `T` between them. -/
def iso : Format := isoDate ++ .literal 'T' :: time ++ [.fraction]

/-- The same down to the nanosecond. -/
def exact : Format := isoDate ++ .literal 'T' :: time ++ [.nanoseconds]

def display : Format := slashDate ++ .blank :: time ++ [.fraction]

/-- The formats that are read, in the order in which they are tried. -/
def readable : List Format :=
  [iso, isoDate ++ .blank :: time ++ [.fraction], slashDate ++ .blank :: time, isoDate, slashDate]

end Format

/-- A year of four digits; outside the years 0 to 9999 it has a sign. -/
def yearText (year : Int) : List Char :=
  if 0 ≤ year ∧ year ≤ 9999 then TimeSpan.padded 4 year.natAbs
  else (if year < 0 then '-' else '+') :: TimeSpan.padded 4 year.natAbs

/-- The text of a field. A leap second is the second number sixty. -/
def fieldText (t : DateTime) : Field → List Char
  | .year => yearText t.year
  | .month => TimeSpan.padded 2 t.month
  | .day => TimeSpan.padded 2 t.dayOfMonth
  | .hour => TimeSpan.padded 2 t.hour
  | .minute => TimeSpan.padded 2 t.minute
  | .second => TimeSpan.padded 2 (t.secondOfMinute + t.nano / 1000000000)

def fractionText (nano : Nat) : List Char :=
  if nano = 0 then []
  else if nano % 1000000 = 0 then '.' :: TimeSpan.padded 3 (nano / 1000000)
  else if nano % 1000 = 0 then '.' :: TimeSpan.padded 6 (nano / 1000)
  else '.' :: TimeSpan.padded 9 nano

def itemText (t : DateTime) : FormatItem → List Char
  | .literal c => [c]
  | .blank => [' ']
  | .field f => fieldText t f
  | .fraction => fractionText (t.nano % 1000000000)
  | .nanoseconds => '.' :: TimeSpan.padded 9 (t.nano % 1000000000)

def format (f : Format) (t : DateTime) : String := String.ofList (f.flatMap t.itemText)

def toText (t : DateTime) : String := t.format Format.display

/-- The fields read so far. -/
structure Fields where
  year : Int
  month : Int
  day : Int
  hour : Int
  minute : Int
  second : Int
  nano : Nat

/-- Set a field that is within its bounds. -/
def Fields.set? (fs : Fields) (n : Int) : Field → Option Fields
  | .year => some { fs with year := n }
  | .month => if 1 ≤ n ∧ n ≤ 12 then some { fs with month := n } else none
  | .day => if 1 ≤ n ∧ n ≤ 31 then some { fs with day := n } else none
  | .hour => if n ≤ 23 then some { fs with hour := n } else none
  | .minute => if n ≤ 59 then some { fs with minute := n } else none
  | .second => if n ≤ 60 then some { fs with second := n } else none

/-- Up to `width` digits, at least one. -/
def digits? (width : Nat) (cs : List Char) : Option (Nat × List Char) :=
  let digits := (cs.takeWhile Text.isDigit).take width
  if digits.isEmpty then none else some (Read.natOfDigits digits, cs.drop digits.length)

/-- A number after blanks: two digits, or four for a year without a sign. -/
def number? (f : Field) (cs : List Char) : Option (Int × List Char) :=
  let cs := Text.trimStart cs
  match f, cs with
  | .year, '-' :: rest => (digits? rest.length rest).map fun (n, rest) => (-(n : Int), rest)
  | .year, '+' :: rest => (digits? rest.length rest).map fun (n, rest) => ((n : Int), rest)
  | .year, _ => (digits? 4 cs).map fun (n, rest) => ((n : Int), rest)
  | _, _ => (digits? 2 cs).map fun (n, rest) => ((n : Int), rest)

/-- Read one part: the fields after it and the rest of the text. -/
def readItem? (fs : Fields) (cs : List Char) : FormatItem → Option (Fields × List Char)
  | .literal c => (Text.dropHead? [c] cs).map (fs, ·)
  | .blank => some (fs, Text.trimStart cs)
  | .field f => do
    let (n, rest) ← number? f cs
    return (← fs.set? n f, rest)
  | .fraction | .nanoseconds =>
    match cs with
    | '.' :: rest => do
      let digits := (rest.takeWhile Text.isDigit).take 9
      if digits.isEmpty then none
      else
        let nano := Read.natOfDigits (digits ++ Binary.zeros (9 - digits.length))
        some ({ fs with nano }, rest.dropWhile Text.isDigit)
    | _ => some (fs, cs)

def readItems? (fs : Fields) (cs : List Char) : Format → Option Fields
  | [] => if cs.isEmpty then some fs else none
  | item :: items => do
    let (fs, rest) ← readItem? fs cs item
    readItems? fs rest items

def ofFields? (fs : Fields) : Option DateTime := do
  let leap := fs.second = 60
  let t ← ofParts? fs.year fs.month fs.day fs.hour fs.minute (if leap then 59 else fs.second)
  make? t.day t.second (if leap then 1000000000 + fs.nano else fs.nano)

/-- Read a text in one format; parts that the format lacks are those of midnight. -/
def read? (f : Format) (cs : List Char) : Option DateTime := do
  ofFields? (← readItems? ⟨0, 1, 1, 0, 0, 0, 0⟩ cs f)

/-- Read a text in the first format that fits. -/
def ofText? (cs : List Char) : Option DateTime := Format.readable.findSome? (read? · cs)

end TypedExpr.DateTime
