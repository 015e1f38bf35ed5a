import TypedExpr.Decimal.Arithmetic
import TypedExpr.Binary.Reader

/-!
# Reading decimals

A decimal is written with an optional sign, digits and at most one point; underscores may stand
anywhere after the first digit. Digits past the last place, or past the coefficient, round the
number, and whatever follows the first of them is not looked at.
-/

namespace TypedExpr.Decimal

/-- What has been read so far. -/
structure Reading where
  coefficient : Nat
  scale : Nat
  pointSeen : Bool
  digitSeen : Bool

/-- Round up to the next coefficient where the first digit left out is five or more. -/
def roundAt? (negative : Bool) (r : Reading) (digit : Nat) : Option Decimal :=
  let coefficient := if digit ≥ 5 then r.coefficient + 1 else r.coefficient
  if coefficient < limit then unsignedZero? negative coefficient r.scale
  else if r.scale = 0 then none
  else unsignedZero? negative ((coefficient + 4) / 10) (r.scale - 1)

def readFrom (negative : Bool) (r : Reading) : List Char → Option Decimal
  | [] => if r.digitSeen then unsignedZero? negative r.coefficient r.scale else none
  | c :: cs =>
    if Text.isDigit c then
      let digit := c.toNat - '0'.toNat
      let coefficient := 10 * r.coefficient + digit
      if coefficient ≥ limit then
        if r.pointSeen then roundAt? negative r digit else none
      else if r.pointSeen && r.scale ≥ maxScale then roundAt? negative r digit
      else
        readFrom negative
          ⟨coefficient, if r.pointSeen then r.scale + 1 else 0, r.pointSeen, true⟩ cs
    else if r.pointSeen && r.scale ≥ maxScale && (c == '_' || c == '.') then
      roundAt? negative r 0
    else if c = '.' ∧ !r.pointSeen then readFrom negative { r with pointSeen := true } cs
    else if c = '_' ∧ r.digitSeen then readFrom negative r cs
    else none

def ofText? (cs : List Char) : Option Decimal :=
  let (negative, body) := Read.signed cs
  readFrom negative ⟨0, 0, false, false⟩ body

end TypedExpr.Decimal
