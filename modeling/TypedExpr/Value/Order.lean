import TypedExpr.Decimal.Binary
import TypedExpr.Value

/-!
# Numbers among values, and the order of values

A number can be looked at as an integer, a double or a decimal. Values of one kind are ordered;
numbers of different kinds are compared as decimals if one of them is a decimal, else as doubles
if one of them is binary, else as integers. Texts are ordered without regard to case first.
-/

namespace TypedExpr

/-- The order of texts: in small letters, and where these agree, small letters before capitals. -/
def Text.compareTexts (a b : String) : Ordering :=
  (compare (toLowercase a) (toLowercase b)).then (compare b a)

namespace Value

/-- The integer that a value is; a character is its code. -/
def toInt? : Value → Option Int
  | integer _ n => some n.val
  | char c => some c.toNat
  | enum _ n => some n.val
  | _ => none

def toFloat? : Value → Option Float
  | single x => some (Binary.widen x)
  | double x => some x
  | decimal d => some d.toFloat
  | v => v.toInt?.map Binary.floatOfInt

/-- The decimal of a number, if it has one. -/
def toDecimal? : Value → Option Decimal
  | decimal d => some d
  | single x => Decimal.ofFloat32? x
  | double x => Decimal.ofFloat? x
  | v => v.toInt?.bind Decimal.ofInt?

def isDecimal : Value → Bool
  | decimal _ => true
  | _ => false

def isBinary : Value → Bool
  | single _ | double _ => true
  | _ => false

def compareNumbers? (a b : Value) : Option Ordering := do
  if a.isDecimal || b.isDecimal then return (← a.toDecimal?).compare (← b.toDecimal?)
  else if a.isBinary || b.isBinary then Binary.compareFloat? (← a.toFloat?) (← b.toFloat?)
  else return compare (← a.toInt?) (← b.toInt?)

def compare? : (a b : Value) → Option Ordering
  | string a, string b => some (Text.compareTexts a b)
  | boolean a, boolean b => some (compare a b)
  | dateTime a, dateTime b => some (a.compare b)
  | timeSpan a, timeSpan b => some (compare a.nanos b.nanos)
  | guid a, guid b => some (a.compare b)
  | a, b => compareNumbers? a b

end Value
end TypedExpr
