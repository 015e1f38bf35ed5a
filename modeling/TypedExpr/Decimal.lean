import TypedExpr.Binary.Notation

/-!
# Decimal numbers

A decimal is a sign, a coefficient of at most ninety-six bits and a scale: the number of its
digits that stand behind the point, at most twenty-eight. Two decimals of different scale can be
the same number, and zero can carry a sign; comparison sees neither, text shows both.
-/

namespace TypedExpr

/-- `coefficient / 10 ^ scale` with a sign. -/
structure Decimal where
  negative : Bool
  coefficient : Nat
  scale : Nat
  coefficient_lt : coefficient < 2 ^ 96
  scale_le : scale ≤ 28
  deriving DecidableEq, Repr

namespace Decimal

def maxScale : Nat := 28

/-- The decimal with these parts, if they are in range. -/
def make? (negative : Bool) (coefficient scale : Nat) : Option Decimal :=
  if h : coefficient < 2 ^ 96 ∧ scale ≤ 28 then some ⟨negative, coefficient, scale, h.1, h.2⟩
  else none

/-- The decimal with these parts; a zero gets no sign. -/
def unsignedZero? (negative : Bool) (coefficient scale : Nat) : Option Decimal :=
  make? (negative && coefficient != 0) coefficient scale

def zero : Decimal := ⟨false, 0, 0, by decide, by decide⟩

def one : Decimal := ⟨false, 1, 0, by decide, by decide⟩

def minusOne : Decimal := ⟨true, 1, 0, by decide, by decide⟩

def maxValue : Decimal := ⟨false, 2 ^ 96 - 1, 0, by decide, by decide⟩

def minValue : Decimal := ⟨true, 2 ^ 96 - 1, 0, by decide, by decide⟩

/-- The number is zero, of whatever sign and scale. -/
def isZero (d : Decimal) : Bool := d.coefficient == 0

def signedCoefficient (d : Decimal) : Int :=
  if d.negative then -(d.coefficient : Int) else d.coefficient

/-- The number times `10 ^ 28`, an integer. -/
def units (d : Decimal) : Int := d.signedCoefficient * 10 ^ (maxScale - d.scale)

def compare (a b : Decimal) : Ordering := Ord.compare a.units b.units

/-- Strip the zeros at the end that stand behind the point. -/
def stripZeros : (coefficient scale : Nat) → Nat × Nat
  | n, 0 => (n, 0)
  | n, scale + 1 => if n % 10 = 0 then stripZeros (n / 10) scale else (n, scale + 1)

theorem stripZeros_le (n scale : Nat) :
    (stripZeros n scale).1 ≤ n ∧ (stripZeros n scale).2 ≤ scale := by
  induction scale generalizing n with
  | zero => exact ⟨Nat.le_refl n, Nat.le_refl 0⟩
  | succ scale ih =>
      rw [stripZeros]
      split
      · obtain ⟨coefficient, digits⟩ := ih (n / 10)
        exact ⟨Nat.le_trans coefficient (Nat.div_le_self n 10), Nat.le_succ_of_le digits⟩
      · exact ⟨Nat.le_refl n, Nat.le_refl _⟩

/-- The same number without zeros at the end behind the point, and without a sign at zero. -/
def normalized (d : Decimal) : Decimal where
  negative := d.negative && d.coefficient != 0
  coefficient := (stripZeros d.coefficient d.scale).1
  scale := (stripZeros d.coefficient d.scale).2
  coefficient_lt := Nat.lt_of_le_of_lt (stripZeros_le d.coefficient d.scale).1 d.coefficient_lt
  scale_le := Nat.le_trans (stripZeros_le d.coefficient d.scale).2 d.scale_le

/-- The other sign, for zero too. -/
def neg (d : Decimal) : Decimal := { d with negative := !d.negative }

/-- Without a sign. -/
def abs (d : Decimal) : Decimal := { d with negative := false }

/-- An integer, if it fits. -/
def ofInt? (n : Int) : Option Decimal := make? (n < 0) n.natAbs 0

/-- The integral part. -/
def truncate (d : Decimal) : Int := d.signedCoefficient.tdiv (10 ^ d.scale)

/-- The nearest integer; of two, the even one. -/
def round (d : Decimal) : Int :=
  let n : Int := BinaryFormat.roundHalfEven d.coefficient (10 ^ d.scale)
  if d.negative then -n else n

/-- All digits of the scale behind the point, and the sign even of zero. -/
def toText (d : Decimal) : String :=
  let digits := Binary.digitsOf d.coefficient
  let body := if d.scale = 0 then digits else Binary.withPoint digits d.scale
  String.ofList (if d.negative then '-' :: body else body)

end Decimal
end TypedExpr
