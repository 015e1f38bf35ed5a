import TypedExpr.Decimal

/-!
# Decimal arithmetic

Results are exact as long as they fit the coefficient and the scale. A longer one loses digits
behind the point, as few as possible, rounded half to even; one that is too large even without
them overflows. Where the larger part of a difference is longer than a coefficient, a borrow from
its upper words is not carried through all of them: see `borrow`.
-/

namespace TypedExpr.Decimal

/-- The first number that a coefficient cannot hold. -/
def limit : Nat := 2 ^ 96

/-- The fewest digits, beginning with `drop`, that have to go for `value` to fit. -/
def digitsToDrop (value : Nat) : (fuel drop : Nat) → Nat
  | 0, drop => drop
  | fuel + 1, drop =>
    if value / 10 ^ drop < limit then drop else digitsToDrop value fuel (drop + 1)

/-- Fit a result: drop `least` digits, and more until the coefficient and the scale are in range,
rounding half to even. Rounding up to the limit costs one digit more. -/
def fitFrom? (least : Nat) (negative : Bool) (value scale : Nat) : Option Decimal :=
  let drop := digitsToDrop value 64 (max least (scale - maxScale))
  let rounded := BinaryFormat.roundHalfEven value (10 ^ drop)
  if drop > scale then none
  else if rounded < limit then unsignedZero? negative rounded (scale - drop)
  else if drop + 1 > scale then none
  else unsignedZero? negative (BinaryFormat.roundHalfEven rounded 10) (scale - (drop + 1))

/-- Fit a result with as few digits dropped as possible. -/
def fit? (negative : Bool) (value scale : Nat) : Option Decimal :=
  fitFrom? 0 negative value scale

/-- The words of thirty-two bits of a number, the lowest first, at most so many. -/
def words : (count n : Nat) → List Nat
  | 0, _ => []
  | count + 1, n => if n = 0 then [] else n % 2 ^ 32 :: words count (n / 2 ^ 32)

/-- The number of such words. -/
def ofWords (ws : List Nat) : Nat := ws.foldr (fun w n => w + 2 ^ 32 * n) 0

/-- Take a borrow from words. The first word that it leaves different from zero ends it, so that a
word of one passes it on, and a word of zero becomes the greatest one and does not. -/
def borrow : List Nat → List Nat
  | [] => []
  | w :: ws => if w = 1 then 0 :: borrow ws else (w + (2 ^ 32 - 1)) % 2 ^ 32 :: ws

/-- How many bits words take up, where the last one may be zero. -/
def bitLength : List Nat → Nat
  | [] => 0
  | [w] => if w = 0 then 0 else Nat.log2 w + 1
  | _ :: ws => 32 + bitLength ws

/-- How many digits a number loses at least whose words above the coefficient take up so many bits:
the logarithm of two is a little more than `77 / 256`. -/
def leastDrop (bits : Nat) : Nat := if bits = 0 then 0 else (bits - 1) * 77 / 256 + 1

/-- The larger of two numbers less the smaller one, which fits a coefficient, and how many digits
have to go at least. -/
def difference (large small : Nat) : Nat × Nat :=
  let low := large % limit
  if small ≤ low then (large - small, 0)
  else
    let upper := borrow (words 3 (large / limit))
    (low + limit - small + limit * ofWords upper, leastDrop (bitLength upper))

/-- The coefficient of `d` at a larger scale. -/
def rescaled (d : Decimal) (scale : Nat) : Nat := d.coefficient * 10 ^ (scale - d.scale)

/-- The sum of two decimals, at the larger scale. A zero summand leaves the other as it is, and
where the summands cancel the zero has no sign. -/
def add? (a b : Decimal) : Option Decimal :=
  if a.isZero then some b
  else if b.isZero then some a
  else
    let scale := max a.scale b.scale
    let x := a.rescaled scale
    let y := b.rescaled scale
    if a.negative = b.negative then fit? a.negative (x + y) scale
    else
      let (value, least) := difference (max x y) (min x y)
      fitFrom? least (if y < x then a.negative else b.negative) value scale

def sub? (a b : Decimal) : Option Decimal :=
  add? a (if b.isZero then b else b.neg)

/-- The product of two decimals. Zero comes without scale, and a product of short coefficients with
more than nineteen places beyond the last one is zero. -/
def mul? (a b : Decimal) : Option Decimal :=
  let scale := a.scale + b.scale
  if a.isZero || b.isZero then some zero
  else if a.coefficient < 2 ^ 32 && b.coefficient < 2 ^ 32 && scale > maxScale + 19 then some zero
  else fit? (a.negative != b.negative) (a.coefficient * b.coefficient) scale

/-- How many more digits the quotient may take in one step: at most nine, so many that it stays
in range and that the scale does not pass its bound. -/
def room (quotient : Nat) (scale : Int) : Nat :=
  let fits (x : Nat) : Bool := quotient ≤ (limit - 1) / 10 ^ x && scale + x ≤ maxScale
  ((List.range 10).reverse.find? fits).getD 0

/-- A quotient that has grown past the limit, cut by one digit. -/
def cutBack? (quotient : Nat) (scale : Int) (inexact : Bool) : Option (Nat × Int) :=
  if scale < 1 then none
  else
    let q := quotient / 10
    let r := quotient % 10
    let up := r > 5 || (r == 5 && (inexact || q % 2 == 1))
    some (if up then q + 1 else q, scale - 1)

/-- Extend a quotient by `x` digits of the remainder and go on with `next`, unless the coefficient
runs out of bits. -/
def extendQuotient (divisor : Nat) (next : (q r : Nat) → (scale : Int) → Option (Nat × Int × Bool))
    (q r : Nat) (scale : Int) (inexact : Bool) (x : Nat) : Option (Nat × Int × Bool) :=
  let scale := scale + x
  let quotient := q * 10 ^ x
  let more := r * 10 ^ x
  if quotient ≥ limit then none
  else if quotient + more / divisor ≥ limit then
    (cutBack? (quotient + more / divisor) scale (more % divisor != 0)).map
      fun (q, scale) => (q, scale, inexact)
  else next (quotient + more / divisor) (more % divisor) scale

/-- Long division: extend the quotient digit block by digit block until the remainder is zero or
there is no more room, then round half to even. A block of less than nine digits is the last one,
and has to bring the scale to zero at least. The flag tells whether the division was not exact from
the start. -/
def divideFrom (divisor : Nat) :
    (fuel quotient remainder : Nat) → (scale : Int) → (inexact : Bool) → Option (Nat × Int × Bool)
  | 0, _, _, _, _ => none
  | fuel + 1, q, r, scale, inexact =>
    if r = 0 then
      if scale ≥ 0 then some (q, scale, inexact)
      else
        extendQuotient divisor (fun q r scale => divideFrom divisor fuel q r scale inexact)
          q r scale inexact (min 9 (-scale).toNat)
    else
      let x := room q scale
      if x < 9 ∧ scale + x < 0 then none
      else if x = 0 then
        -- no room is left for what remains, but for rounding
        if 2 * r > divisor ∨ 2 * r = divisor ∧ q % 2 = 1 then
          if q + 1 < limit then some (q + 1, scale, true)
          else (cutBack? (q + 1) scale true).map fun (q, scale) => (q, scale, true)
        else some (q, scale, true)
      else
        extendQuotient divisor (fun q r scale => divideFrom divisor fuel q r scale true)
          q r scale true x

/-- Drop `places` zeros from the end, if they are there and the scale allows it. -/
def dropZeros (places : Nat) (q scale : Nat) : Nat × Nat :=
  if q % 2 ^ min places 4 = 0 ∧ scale ≥ places ∧ q % 10 ^ places = 0 then
    (q / 10 ^ places, scale - places)
  else (q, scale)

/-- Drop zeros eight at a time, as long as the low word of the coefficient is zero. -/
def dropEights : (fuel : Nat) → (q scale : Nat) → Nat × Nat
  | 0, q, scale => (q, scale)
  | fuel + 1, q, scale =>
    if q % 2 ^ 32 = 0 ∧ scale ≥ 8 ∧ q % 10 ^ 8 = 0 then dropEights fuel (q / 10 ^ 8) (scale - 8)
    else (q, scale)

/-- Shorten an inexact quotient: eight zeros at a time from a coefficient with an empty low word,
then at most four, two and one. -/
def shorten (q scale : Nat) : Nat × Nat :=
  let (q, scale) := dropEights 4 q scale
  let (q, scale) := dropZeros 4 q scale
  let (q, scale) := dropZeros 2 q scale
  dropZeros 1 q scale

/-- The quotient of two decimals; the divisor is not zero. -/
def div? (a b : Decimal) : Option Decimal :=
  if a.isZero then some zero
  else do
    let (q, scale, inexact) ← divideFrom b.coefficient 64 (a.coefficient / b.coefficient)
      (a.coefficient % b.coefficient) ((a.scale : Int) - b.scale) false
    let (q, scale) := if inexact then shorten q scale.toNat else (q, scale.toNat)
    unsignedZero? (a.negative != b.negative) q scale

/-- The remainder of a division rounded toward zero, with the sign of the dividend; the divisor
is not zero. -/
def rem? (a b : Decimal) : Option Decimal :=
  let scale := max a.scale b.scale
  let x := a.rescaled scale
  let y := b.rescaled scale
  if a.isZero || x = y then some zero
  else if x < y then some a
  else unsignedZero? a.negative (x % y) scale

end TypedExpr.Decimal
