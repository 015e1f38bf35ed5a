import TypedExpr.Binary

/-!
# The shortest decimal that reads back

Among the decimals that round to a given binary number there is a least count of digits. With
that count, the decimal nearest to the number is chosen; `TieRule` says which of two equally near
ones. Everything is computed on exact ratios of natural numbers.
-/

namespace TypedExpr

/-- Which of two equally near decimals to take. -/
inductive TieRule where
  | up
  | even
  deriving DecidableEq, Repr

/-- A decimal `digits * 10 ^ exponent`. -/
structure Scientific where
  digits : Nat
  exponent : Int
  deriving DecidableEq, Repr

namespace Scientific

/-- Drop trailing zeros, at most `fuel` of them. -/
def stripZeros : (fuel : Nat) → Scientific → Scientific
  | 0, s => s
  | fuel + 1, s =>
    if s.digits ≠ 0 ∧ s.digits % 10 = 0 then stripZeros fuel ⟨s.digits / 10, s.exponent + 1⟩ else s

/-- The ratio `num / den` divided by `10 ^ e`. -/
def scaleDown (num den : Nat) (e : Int) : Nat × Nat :=
  if e < 0 then (num * 10 ^ (-e).toNat, den) else (num, den * 10 ^ e.toNat)

/-- Raise `e`, at most `fuel` times, while the ratio is at least `10 ^ (e + 1)`. -/
def raise (num den : Nat) : (fuel : Nat) → Int → Int
  | 0, e => e
  | fuel + 1, e =>
    let (a, b) := scaleDown num den (e + 1)
    if a ≥ b then raise num den fuel (e + 1) else e

/-- The exponent of the leading digit of a positive ratio. -/
def leadingExponent (num den : Nat) : Int :=
  raise num den 4 ((((Nat.log2 num : Int) - Nat.log2 den - 1) * 1233).fdiv 4096 - 1)

/-- The neighbours of `value / den` on the grid of multiples of `10 ^ e` that lie in the interval
from `low` to `high` (over `den`, ends included iff `closed`), the nearer one if both do. -/
def onGrid? (tie : TieRule) (low value high den : Nat) (closed : Bool) (e : Int) :
    Option Scientific :=
  let (v, unit) := scaleDown value den e
  let (lo, _) := scaleDown low den e
  let (hi, _) := scaleDown high den e
  let below := v / unit
  let inside (n : Nat) : Bool :=
    if closed then lo ≤ n * unit && n * unit ≤ hi else lo < n * unit && n * unit < hi
  let rest := v % unit
  match inside below, inside (below + 1) with
  | true, true =>
    let takeUpper :=
      if 2 * rest = unit then tie == .up || below % 2 == 1 else decide (2 * rest > unit)
    some ⟨if takeUpper then below + 1 else below, e⟩
  | true, false => some ⟨below, e⟩
  | false, true => some ⟨below + 1, e⟩
  | false, false => none

/-- The first grid with a hit, from the exponent `e` downward through `fuel` grids. -/
def firstHit (tie : TieRule) (low value high den : Nat) (closed : Bool) :
    (fuel : Nat) → Int → Scientific
  | 0, e => ⟨0, e⟩
  | fuel + 1, e =>
    match onGrid? tie low value high den closed e with
    | some s => s
    | none => firstHit tie low value high den closed fuel (e - 1)

end Scientific

/-- The shortest decimal that rounds to the positive number `m * 2 ^ e` of the format. -/
def BinaryFormat.shortest (f : BinaryFormat) (tie : TieRule) (m : Nat) (e : Int) : Scientific :=
  let lowGap := if m = f.binade ∧ e > f.minExponent then 1 else 2
  let (factor, den) := if e < 2 then (1, 2 ^ (2 - e).toNat) else (2 ^ (e - 2).toNat, 1)
  let value := 4 * m * factor
  let found := Scientific.firstHit tie ((4 * m - lowGap) * factor) value ((4 * m + 2) * factor) den
    (m % 2 == 0) 18 (Scientific.leadingExponent value den)
  found.stripZeros 20

end TypedExpr
