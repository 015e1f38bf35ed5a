import TypedExpr.Binary.Shortest

/-!
# Writing binary numbers

Both notations write the shortest digits that read back. The plain one never uses an exponent
and leaves out a fraction of zero; the exchange one keeps a point in every number and turns to an
exponent for very large and very small ones.
-/

namespace TypedExpr.Binary

def zeros (count : Nat) : List Char := List.replicate count '0'

def digitsOf (n : Nat) : List Char := Nat.toDigits 10 n

/-- The digits with a point `places` from the right, and at least one digit before it. -/
def withPoint (digits : List Char) (places : Nat) : List Char :=
  if places < digits.length then
    digits.take (digits.length - places) ++ '.' :: digits.drop (digits.length - places)
  else '0' :: '.' :: (zeros (places - digits.length) ++ digits)

/-- A decimal without exponent and without a fraction of zero. -/
def plain (s : Scientific) : List Char :=
  if s.exponent < 0 then withPoint (digitsOf s.digits) (-s.exponent).toNat
  else digitsOf s.digits ++ zeros s.exponent.toNat

/-- How many digits a number with a point may have, and how many zeros may follow the point,
before the exchange notation takes an exponent. -/
structure ExchangeLimits where
  digits : Int
  leadingZeros : Int

/-- Up to sixteen digits before the point, up to four zeros after it. -/
def exchangeLimits : ExchangeLimits := ⟨16, 4⟩

def exchange (s : Scientific) : List Char :=
  let digits := digitsOf s.digits
  let point : Int := digits.length + s.exponent
  if 0 ≤ s.exponent ∧ point ≤ exchangeLimits.digits then
    digits ++ zeros s.exponent.toNat ++ ['.', '0']
  else if s.exponent < 0 ∧ -exchangeLimits.leadingZeros - 1 < point ∧
      point ≤ exchangeLimits.digits then
    withPoint digits (-s.exponent).toNat
  else
    let mantissa := match digits with
      | [] => []
      | [d] => [d]
      | d :: rest => d :: '.' :: rest
    mantissa ++ 'e' :: (toString (point - 1)).toList

/-- The plain notation of a double: `NaN`, `Infinity`, or digits. -/
def display (x : Float) : String :=
  match Binary.ofFloat x with
  | .notANumber => "NaN"
  | .infinite negative => if negative then "-Infinity" else "Infinity"
  | .finite negative m e =>
    let digits := if m = 0 then ['0'] else plain (BinaryFormat.double.shortest .up m e)
    String.ofList (if negative then '-' :: digits else digits)

/-- The exchange notation of a double, if it is finite. -/
def exchangeText? (x : Float) : Option String :=
  match Binary.ofFloat x with
  | .finite negative m e =>
    let digits :=
      if m = 0 then ['0', '.', '0'] else exchange (BinaryFormat.double.shortest .even m e)
    some (String.ofList (if negative then '-' :: digits else digits))
  | _ => none

end TypedExpr.Binary
