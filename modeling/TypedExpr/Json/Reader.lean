import TypedExpr.Binary.Order
import TypedExpr.Guid
import TypedExpr.Json

/-!
# Reading JSON

A document of at most 127 levels of arrays and objects, with blanks but nothing else around it.
Texts are checked strictly: no control characters, and only whole pairs of surrogates. A number
with a fraction or an exponent, or one that does not fit 64 bits, is the quotient or product of a
significand of 64 bits and a power of ten, each rounded to a double; digits that do not fit the
significand are left out.
-/

namespace TypedExpr.Json

def isBlank (c : Char) : Bool := c == ' ' || c == '\n' || c == '\t' || c == '\r'

/-- The text from its first character that is not blank. -/
def skipBlanks (cs : List Char) : List Char := cs.dropWhile isBlank

def digitRun (cs : List Char) : List Char × List Char :=
  (cs.takeWhile Text.isDigit, cs.dropWhile Text.isDigit)

/-- The significand has no room for one more digit. -/
def isFull (significand : Nat) (digit : Char) : Bool :=
  10 * significand + Guid.digitValue digit ≥ 2 ^ 64

/-- Take digits into a significand as long as they fit: the significand, how many were taken, and
those left over. -/
def takeDigits (significand : Nat) (taken : Nat) : List Char → Nat × Nat × List Char
  | [] => (significand, taken, [])
  | d :: ds =>
    if isFull significand d then (significand, taken, d :: ds)
    else takeDigits (10 * significand + Guid.digitValue d) (taken + 1) ds

def powerOfTen (n : Nat) : Float :=
  Binary.toFloat (BinaryFormat.double.ofDecimal false 1 n)

/-- Divide by powers of ten of at most 308 at a time, at most so many times. -/
def divideByPower (x : Float) (n : Nat) : Nat → Float
  | 0 => x
  | fuel + 1 =>
    if n ≤ 308 then x / powerOfTen n
    else if x == 0 then x
    else divideByPower (x / powerOfTen 308) (n - 308) fuel

/-- The double nearest to a significand times a power of ten, up to two roundings. -/
def scaled? (significand : Nat) (exponent : Int) : Option Float :=
  let x := Binary.floatOfInt significand
  if exponent < 0 then some (divideByPower x (-exponent).toNat 5)
  else if exponent > 308 then if significand = 0 then some x else none
  else
    let product := x * powerOfTen exponent.toNat
    if (Binary.ofFloat product).isFinite then some product else none

def exponent? (cs : List Char) : Option (Bool × Nat × List Char) :=
  let (negative, cs) := match cs with
    | '-' :: rest => (true, rest)
    | '+' :: rest => (false, rest)
    | cs => (false, cs)
  let (digits, rest) := digitRun cs
  if digits.isEmpty then none
  else some (negative, digits.foldl (fun n c => 10 * n + Guid.digitValue c) 0, rest)

/-- A double from a significand and an exponent, and a further exponent if one is written. -/
def float? (negative : Bool) (significand : Nat) (exponent : Int) (cs : List Char) :
    Option (Json × List Char) := do
  let signed (x : Float) : Json := .float (if negative then -x else x)
  match cs with
  | [] => return (signed (← scaled? significand exponent), cs)
  | c :: rest =>
    if c = 'e' ∨ c = 'E' then
      let (minus, n, rest) ← exponent? rest
      if n < 2 ^ 31 then
        let total := if minus then exponent - n else exponent + n
        return (signed (← scaled? significand (max (-2 ^ 31) (min (2 ^ 31 - 1) total))), rest)
      else if significand = 0 ∨ minus then return (signed 0, rest)
      else none
    else return (signed (← scaled? significand exponent), cs)

/-- What follows the digits before a point: `left` of them did not fit. -/
def afterWhole? (negative : Bool) (significand left : Nat) (cs : List Char) :
    Option (Json × List Char) :=
  match cs with
  | '.' :: rest =>
    let (digits, rest) := digitRun rest
    if digits.isEmpty then none
    else
      let (significand, taken, _) := takeDigits significand 0 digits
      float? negative significand ((left : Int) - taken) rest
  | cs => float? negative significand left cs

/-- The next character begins a fraction or an exponent. -/
def goesOn : List Char → Bool
  | c :: _ => c == '.' || c == 'e' || c == 'E'
  | [] => false

/-- A number without its sign. -/
def number? (negative : Bool) (cs : List Char) : Option (Json × List Char) :=
  let (digits, rest) := digitRun cs
  match digits with
  | [] => none
  | first :: more =>
    if first = '0' && !more.isEmpty then none
    else
      let (significand, _, left) := takeDigits 0 0 digits
      if !left.isEmpty || goesOn rest then afterWhole? negative significand left.length rest
      else if negative then
        if significand = 0 ∨ significand > 2 ^ 63 then
          some (.float (-(Binary.floatOfInt significand)), rest)
        else some (.int (-(significand : Int)), rest)
      else some (.int significand, rest)

def hexUnit? (cs : List Char) : Option (Nat × List Char) :=
  let digits := cs.take 4
  if digits.length = 4 && digits.all Text.isHexDigit then
    some (Guid.natOfHex digits, cs.drop 4)
  else none

/-- The character after `\u`: one unit, or two that form a pair of surrogates. -/
def escapedUnit? (cs : List Char) : Option (Char × List Char) := do
  let (high, rest) ← hexUnit? cs
  if high < 0xD800 || high > 0xDFFF then return (Char.ofNat high, rest)
  if high ≥ 0xDC00 then none
  match rest with
  | '\\' :: 'u' :: rest =>
    let (low, rest) ← hexUnit? rest
    if 0xDC00 ≤ low && low ≤ 0xDFFF then
      return (Char.ofNat (0x10000 + (high - 0xD800) * 0x400 + (low - 0xDC00)), rest)
    else none
  | _ => none

/-- The character of an escape without a number. -/
def shortEscape? : Char → Option Char
  | '"' => some '"'
  | '\\' => some '\\'
  | '/' => some '/'
  | 'b' => some '\x08'
  | 'f' => some '\x0c'
  | 'n' => some '\n'
  | 'r' => some '\r'
  | 't' => some '\t'
  | _ => none

/-- A text after its opening quote, of at most so many characters. -/
def stringFrom? : Nat → (read : List Char) → List Char → Option (String × List Char)
  | 0, _, _ => none
  | fuel + 1, read, cs =>
    match cs with
    | [] => none
    | '"' :: rest => some (String.ofList read.reverse, rest)
    | '\\' :: 'u' :: rest => do
      let (c, rest) ← escapedUnit? rest
      stringFrom? fuel (c :: read) rest
    | '\\' :: e :: rest => do
      let c ← shortEscape? e
      stringFrom? fuel (c :: read) rest
    | c :: rest => if c.toNat < 0x20 then none else stringFrom? fuel (c :: read) rest

def quoted? (cs : List Char) : Option (String × List Char) := stringFrom? (cs.length + 1) [] cs

/-- Readers of a document at the front of a text. -/
abbrev Part := List Char → Option (Json × List Char)

/-- Items up to the closing bracket, the first of which has been begun. -/
def itemsFrom? (item : Part) : Nat → List Char → Option (List Json × List Char)
  | 0, _ => none
  | fuel + 1, cs => do
    let (j, rest) ← item cs
    match skipBlanks rest with
    | ',' :: rest => do
      let (js, rest) ← itemsFrom? item fuel rest
      return (j :: js, rest)
    | ']' :: rest => return ([j], rest)
    | _ => none

def entry? (item : Part) (cs : List Char) : Option ((String × Json) × List Char) := do
  match skipBlanks cs with
  | '"' :: rest =>
    let (key, rest) ← quoted? rest
    match skipBlanks rest with
    | ':' :: rest =>
      let (j, rest) ← item rest
      return ((key, j), rest)
    | _ => none
  | _ => none

/-- Entries up to the closing brace, the first of which has been begun. -/
def entriesFrom? (item : Part) : Nat → List Char → Option (List (String × Json) × List Char)
  | 0, _ => none
  | fuel + 1, cs => do
    let (e, rest) ← entry? item cs
    match skipBlanks rest with
    | ',' :: rest => do
      let (es, rest) ← entriesFrom? item fuel rest
      return (e :: es, rest)
    | '\x7d' :: rest => return ([e], rest)
    | _ => none

def array? (item : Part) : Part := fun cs =>
  match skipBlanks cs with
  | ']' :: rest => some (.array [], rest)
  | rest => (itemsFrom? item (rest.length + 1) rest).map fun (js, rest) => (.array js, rest)

def object? (item : Part) : Part := fun cs =>
  match skipBlanks cs with
  | '\x7d' :: rest => some (.object [], rest)
  | rest => (entriesFrom? item (rest.length + 1) rest).map fun (es, rest) => (.object es, rest)

def word? (word : String) (j : Json) (cs : List Char) : Option (Json × List Char) :=
  (Text.dropHead? word.toList cs).map (j, ·)

/-- A document that is neither an array nor an object. -/
def scalar? (cs : List Char) : Option (Json × List Char) :=
  match cs with
  | '"' :: rest => (quoted? rest).map fun (s, rest) => (.string s, rest)
  | '-' :: rest => number? true rest
  | 't' :: _ => word? "true" (.bool true) cs
  | 'f' :: _ => word? "false" (.bool false) cs
  | 'n' :: _ => word? "null" .null cs
  | cs => number? false cs

/-- A document with at most so many levels of arrays and objects, after blanks. -/
def document? : Nat → Part
  | 0, cs => scalar? (skipBlanks cs)
  | n + 1, cs =>
    match skipBlanks cs with
    | '[' :: rest => array? (document? n) rest
    | '\x7b' :: rest => object? (document? n) rest
    | rest => scalar? rest

def maxLevels : Nat := 127

/-- Read a document with all its entries, also those of one key. -/
def readEntries? (text : String) : Option Json :=
  match document? maxLevels text.toList with
  | some (j, rest) => if (skipBlanks rest).isEmpty then some j else none
  | none => none

def read? (text : String) : Option Json := (readEntries? text).map merged

end TypedExpr.Json
