import TypedExpr.Binary

/-!
# Order and arithmetic of binary numbers

Comparison goes by the signed magnitude of the bit pattern: it increases with the number, gives
both zeros the key zero, and a NaN has none. Remainders are computed exactly.
-/

namespace TypedExpr.Binary

/-- The sort key of a bit pattern, or `none` for a NaN. -/
def key? (f : BinaryFormat) (bits : Nat) : Option Int :=
  let magnitude := bits % f.signBit
  if magnitude > f.infinity then none
  else some (if f.signBit ≤ bits then -(magnitude : Int) else magnitude)

def floatKey? (x : Float) : Option Int := key? BinaryFormat.double x.toBits.toNat

def float32Key? (x : Float32) : Option Int := key? BinaryFormat.single x.toBits.toNat

/-- The pattern that stands for all patterns of one number: both zeros have that of the positive
one, and all NaNs that of the first quiet one. -/
def canonicalBits (f : BinaryFormat) (bits : Nat) : Nat :=
  let magnitude := bits % f.signBit
  if magnitude > f.infinity then f.infinity + f.binade / 2
  else if magnitude = 0 then 0
  else bits

/-- The order of two doubles; a NaN has no place in it. -/
def compareFloat? (x y : Float) : Option Ordering := do
  return compare (← floatKey? x) (← floatKey? y)

def toFloat (bits : Nat) : Float := Float.ofBits (UInt64.ofNat bits)

def toFloat32 (bits : Nat) : Float32 := Float32.ofBits (UInt32.ofNat bits)

/-- A single number as a double one, which is the same number. -/
def widen (x : Float32) : Float := toFloat (BinaryFormat.double.ofValue (ofFloat32 x))

/-- The single number nearest to a double one. -/
def narrow (x : Float) : Float32 := toFloat32 (BinaryFormat.single.ofValue (ofFloat x))

/-- The pattern of the remainder of a division rounded toward zero, which has the sign of the
dividend and is exact. -/
def remainder (f : BinaryFormat) (x y : Nat) : Nat :=
  match f.decode x, f.decode y with
  | .finite negative m e, .finite _ n k =>
    if n = 0 then f.infinity + 1
    else
      let unit := min e k
      let r := (m * 2 ^ (e - unit).toNat) % (n * 2 ^ (k - unit).toNat)
      let (num, den) := BinaryFormat.scaleDown r 1 (-unit)
      f.encode negative (f.nearest num den)
  | .finite .., .infinite _ => x
  | _, _ => f.infinity + 1

def floatRemainder (x y : Float) : Float :=
  toFloat (remainder BinaryFormat.double x.toBits.toNat y.toBits.toNat)

def float32Remainder (x y : Float32) : Float32 :=
  toFloat32 (remainder BinaryFormat.single x.toBits.toNat y.toBits.toNat)

def floatOfInt (n : Int) : Float :=
  toFloat (BinaryFormat.double.encode (n < 0) (BinaryFormat.double.nearest n.natAbs 1))

def float32OfInt (n : Int) : Float32 :=
  toFloat32 (BinaryFormat.single.encode (n < 0) (BinaryFormat.single.nearest n.natAbs 1))

/-- The integral part, as a double with the sign of `x`. -/
def truncate (x : Float) : Float := if x < 0 then x.ceil else x.floor

/-- The nearest integer; of two, the even one. -/
def roundHalfEven (x : Float) : Float :=
  if (x - truncate x).abs == 0.5 then 2.0 * (x / 2.0).round else x.round

/-- The integral part as an integer, kept within 128 bits; a NaN counts as zero. -/
def toInt (x : Float) : Int := (Binary.ofFloat x).toInt

end TypedExpr.Binary
