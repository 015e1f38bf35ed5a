import TypedExpr.Binary.Order
import TypedExpr.Text.Search

/-!
# Reading numbers

Integers are an optional sign and digits. A floating-point text is an optional sign followed by
digits with an optional point and an optional exponent, at least one digit before the exponent,
or by one of the names of infinity and NaN in any case. It reads as the nearest number.
-/

namespace TypedExpr.Read

def natOfDigits (digits : List Char) : Nat :=
  digits.foldl (fun n c => 10 * n + (c.toNat - '0'.toNat)) 0

/-- The value of a nonempty text of digits alone. -/
def nat? (cs : List Char) : Option Nat :=
  if cs.isEmpty || !cs.all Text.isDigit then none else some (natOfDigits cs)

def int? : List Char → Option Int
  | '-' :: cs => (nat? cs).map fun n => -(n : Int)
  | '+' :: cs => (nat? cs).map fun n => (n : Int)
  | cs => (nat? cs).map fun n => (n : Int)

/-- An integer between two bounds. Where nothing is below zero, a minus sign is refused. -/
def intWithin? (low high : Int) (cs : List Char) : Option Int :=
  match cs with
  | '-' :: _ => if low < 0 then (int? cs).filter fun n => low ≤ n && n ≤ high else none
  | _ => (int? cs).filter fun n => low ≤ n && n ≤ high

def signed : List Char → Bool × List Char
  | '-' :: cs => (true, cs)
  | '+' :: cs => (false, cs)
  | cs => (false, cs)

/-- An exponent: a sign and at least one digit, to the end of the text. -/
def exponent? (cs : List Char) : Option Int :=
  let (negative, digits) := signed cs
  (nat? digits).map fun n => if negative then -(n : Int) else n

/-- Digits with an optional point and exponent, as a coefficient and a power of ten. -/
def scientific? (cs : List Char) : Option (Nat × Int) :=
  let whole := cs.takeWhile Text.isDigit
  let rest := cs.dropWhile Text.isDigit
  let (fraction, rest) := match rest with
    | '.' :: tail => (tail.takeWhile Text.isDigit, tail.dropWhile Text.isDigit)
    | _ => ([], rest)
  if whole.isEmpty && fraction.isEmpty then none
  else
    let coefficient := natOfDigits (whole ++ fraction)
    let places : Int := fraction.length
    match rest with
    | [] => some (coefficient, -places)
    | c :: tail =>
      if c = 'e' ∨ c = 'E' then (exponent? tail).map fun e => (coefficient, e - places) else none

def binary? (f : BinaryFormat) (cs : List Char) : Option Nat :=
  let (negative, body) := signed cs
  match scientific? body with
  | some (coefficient, exponent) => some (f.ofDecimal negative coefficient exponent)
  | none =>
    let word := body.map Char.toLower
    if word = "inf".toList ∨ word = "infinity".toList then some (f.encode negative f.infinity)
    else if word = "nan".toList then some (f.encode negative (f.infinity + 1))
    else none

def float? (cs : List Char) : Option Float := (binary? .double cs).map Binary.toFloat

def float32? (cs : List Char) : Option Float32 := (binary? .single cs).map Binary.toFloat32

end TypedExpr.Read
