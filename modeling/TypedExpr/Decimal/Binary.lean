import TypedExpr.Decimal.Arithmetic
import TypedExpr.Binary.Order

/-!
# Decimals and binary numbers

A binary number becomes a decimal by trading powers of two for powers of five and ten, losing low
digits only where the coefficient runs out of bits. Then the digits beyond the precision that the
binary format guarantees are rounded away, and with them trailing zeros.
-/

namespace TypedExpr.Decimal

/-- Turn `bits / 2 ^ k` into `bits * 10 ^ e`: halve while possible, else multiply by five. -/
def absorbHalves : (k bits : Nat) → (e : Int) → Nat × Int
  | 0, bits, e => (bits, e)
  | k + 1, bits, e =>
    if bits % 2 = 0 then absorbHalves k (bits / 2) (e + 1)
    else if bits * 5 < limit then absorbHalves k (bits * 5) e
    else absorbHalves k (bits / 2) (e + 1)

/-- Turn `bits * 2 ^ k` into `bits * 10 ^ e`: double while possible, else divide by five. -/
def absorbDoubles : (k bits : Nat) → (e : Int) → Nat × Int
  | 0, bits, e => (bits, e)
  | k + 1, bits, e =>
    if bits < 2 ^ 95 then absorbDoubles k (bits * 2) (e - 1) else absorbDoubles k (bits / 5) e

/-- Write out `k` powers of ten. -/
def writeOut? : (k bits : Nat) → Option Nat
  | 0, bits => some bits
  | k + 1, bits => if bits * 10 < limit then writeOut? k (bits * 10) else none

/-- One digit less, rounded half up. -/
def dropDigit (bits : Nat) : Nat := if bits % 10 ≥ 5 then bits / 10 + 1 else bits / 10

/-- Drop `k` digits one after the other; a number that vanishes loses its scale. -/
def dropDigits : (k bits : Nat) → (e : Int) → Nat × Int
  | 0, bits, e => (bits, e)
  | k + 1, bits, e => if bits / 10 = 0 then (0, 0) else dropDigits k (dropDigit bits) (e + 1)

/-- Drop digits behind the point, at most `k`, while the coefficient has more than `bound`. -/
def toPrecision (bound : Nat) : (k bits : Nat) → Nat × Nat
  | 0, bits => (bits, 0)
  | k + 1, bits => if bits < bound then (bits, k + 1) else toPrecision bound k (dropDigit bits)

/-- Drop zeros behind the point, at most `k`. -/
def withoutZeros : (k bits : Nat) → Nat × Nat
  | 0, bits => (bits, 0)
  | k + 1, bits => if bits % 10 = 0 then withoutZeros k (bits / 10) else (bits, k + 1)

/-- The decimal of a finite binary number; `precision` is the format's, less the leading bit for
sixty-four bits. -/
def ofBinary? (bound : Nat) : BinaryValue → Option Decimal
  | .finite negative m e =>
    if m = 0 then make? negative 0 0
    else do
      let (bits, e10) :=
        if e < 0 then absorbHalves (-e).toNat m e else absorbDoubles e.toNat m e
      let (bits, e10) ← if e10 > 0 then (writeOut? e10.toNat bits).map (·, (0 : Int))
        else some (bits, e10)
      let (bits, e10) := dropDigits (-e10 - maxScale).toNat bits e10
      let (bits, scale) := toPrecision bound (-e10).toNat bits
      let (bits, scale) := withoutZeros scale bits
      make? negative bits scale
  | _ => none

def ofFloat? (x : Float) : Option Decimal := ofBinary? (2 ^ 52) (Binary.ofFloat x)

def ofFloat32? (x : Float32) : Option Decimal := ofBinary? (2 ^ 24) (Binary.ofFloat32 x)

/-- A double near the decimal: the integral part plus the fraction, brought back to the digits
of the scale. -/
def toFloat (d : Decimal) : Float :=
  let precision := 10 ^ d.scale
  let whole := Binary.floatOfInt (d.coefficient / precision : Nat)
  let fraction := Binary.floatOfInt (d.coefficient % precision : Nat) / Binary.floatOfInt precision
  if d.scale = 0 then Binary.floatOfInt d.signedCoefficient
  else
    let magnitude :=
      if d.coefficient % precision = 0 then whole
      else
        let unit := Binary.floatOfInt precision
        ((whole + fraction) * unit).round / unit
    if d.negative then -magnitude else magnitude

end TypedExpr.Decimal
