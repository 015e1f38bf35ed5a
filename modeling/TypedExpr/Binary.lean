import TypedExpr.Power

/-!
# Binary floating-point formats

A finite binary number is a coefficient times a power of two. A format bounds both: `precision`
bits for the coefficient, and a range for the exponent. The magnitude of a number in a format is
a natural number that grows with the number, and rounding a ratio to the nearest number of the
format computes that magnitude, so that a carry into the next binade needs no care.
-/

namespace TypedExpr

/-- A binary interchange format. Exponents are those of the unit of the coefficient. -/
structure BinaryFormat where
  precision : Nat
  minExponent : Int
  maxExponent : Int
  deriving DecidableEq, Repr

/-- What a bit pattern stands for: `coefficient * 2 ^ exponent`, an infinity, or no number. -/
inductive BinaryValue where
  | finite (negative : Bool) (coefficient : Nat) (exponent : Int)
  | infinite (negative : Bool)
  | notANumber
  deriving DecidableEq, Repr

namespace BinaryFormat

def double : BinaryFormat := ⟨53, -1074, 971⟩

def single : BinaryFormat := ⟨24, -149, 104⟩

/-- One unit of the exponent field. -/
def binade (f : BinaryFormat) : Nat := 2 ^ (f.precision - 1)

/-- The magnitude of infinity, above which there are no numbers. -/
def infinity (f : BinaryFormat) : Nat := ((f.maxExponent - f.minExponent).toNat + 2) * f.binade

def signBit (f : BinaryFormat) : Nat :=
  2 ^ (Nat.log2 f.infinity + 1)

/-- What the pattern `bits` stands for. -/
def decode (f : BinaryFormat) (bits : Nat) : BinaryValue :=
  let negative := f.signBit ≤ bits
  let magnitude := bits % f.signBit
  if magnitude > f.infinity then .notANumber
  else if magnitude = f.infinity then .infinite negative
  else
    let field := magnitude / f.binade
    if field = 0 then .finite negative magnitude f.minExponent
    else .finite negative (magnitude % f.binade + f.binade) (f.minExponent + (field - 1 : Nat))

def encode (f : BinaryFormat) (negative : Bool) (magnitude : Nat) : Nat :=
  if negative then f.signBit + magnitude else magnitude

/-- `num / den` divided by `2 ^ e`, as a new ratio. -/
def scaleDown (num den : Nat) (e : Int) : Nat × Nat :=
  if e < 0 then (num * 2 ^ (-e).toNat, den) else (num, den * 2 ^ e.toNat)

/-- The nearest natural number to a ratio; of two, the even one. -/
def roundHalfEven (num den : Nat) : Nat :=
  let q := num / den
  let r := num % den
  if 2 * r < den then q else if 2 * r > den then q + 1 else q + q % 2

/-- The magnitude of the number of the format nearest to `num / den`. -/
def nearest (f : BinaryFormat) (num den : Nat) : Nat :=
  if num = 0 ∨ den = 0 then 0
  else
    let guess : Int := (Nat.log2 num : Int) - Nat.log2 den
    let (a, b) := scaleDown num den guess
    let top := if a ≥ b then guess else guess - 1
    let e := max f.minExponent (top - ((f.precision : Int) - 1))
    let (a, b) := scaleDown num den e
    min f.infinity ((e - f.minExponent).toNat * f.binade + roundHalfEven a b)

/-- The pattern of the value nearest to a value of any format. -/
def ofValue (f : BinaryFormat) : BinaryValue → Nat
  | .finite negative coefficient exponent =>
    let (num, den) := scaleDown coefficient 1 (-exponent)
    f.encode negative (f.nearest num den)
  | .infinite negative => f.encode negative f.infinity
  | .notANumber => f.infinity + 1

/-- The pattern of the number nearest to `± coefficient * 10 ^ exponent`. Beyond four hundred
places on either side the answer is an infinity or zero. -/
def ofDecimal (f : BinaryFormat) (negative : Bool) (coefficient : Nat) (exponent : Int) : Nat :=
  let top : Int := Nat.log2 coefficient / 3 + exponent
  f.encode negative <|
    if coefficient = 0 ∨ top < -1000 then 0
    else if exponent > 1000 then f.infinity
    else if exponent < 0 then f.nearest coefficient (10 ^ (-exponent).toNat)
    else f.nearest (coefficient * 10 ^ exponent.toNat) 1

end BinaryFormat

def Binary.ofFloat (x : Float) : BinaryValue := BinaryFormat.double.decode x.toBits.toNat

def Binary.ofFloat32 (x : Float32) : BinaryValue := BinaryFormat.single.decode x.toBits.toNat

namespace BinaryValue

def isFinite : BinaryValue → Bool
  | finite .. => true
  | _ => false

def truncated? : BinaryValue → Option Int
  | finite negative m e =>
    let n : Nat := if e < 0 then m / 2 ^ (-e).toNat else m * 2 ^ e.toNat
    some (if negative then -(n : Int) else n)
  | _ => none

/-- The integral part as an integer, kept within 128 bits; a NaN counts as zero. -/
def toInt : BinaryValue → Int
  | notANumber => 0
  | infinite negative => if negative then -2 ^ 127 else 2 ^ 127 - 1
  | v => max (-2 ^ 127) (min (2 ^ 127 - 1) (v.truncated?.getD 0))

end BinaryValue
end TypedExpr
