import TypedExpr.Hash
import TypedExpr.Value

/-!
# Equality of values

Values are equal when they are of one kind and have the same content. Binary numbers are compared
as numbers, so that both zeros are equal, and a NaN equals itself; decimals are compared without
their scale. Records need the same type and equal fields, objects of the host are equal only to
themselves. Hash codes have forms of their own for numbers: one bit pattern for both zeros and one
for all NaNs, and decimals without zeros at their end.
-/

namespace TypedExpr.Value

mutual

def same : Value → Value → Bool
  | null, null => true
  | boolean a, boolean b => a == b
  | char a, char b => a == b
  | string a, string b => a == b
  | integer k a, integer l b => k == l && a.val == b.val
  | single a, single b => Binary.float32Key? a == Binary.float32Key? b
  | double a, double b => Binary.floatKey? a == Binary.floatKey? b
  | decimal a, decimal b => a.units == b.units
  | dateTime a, dateTime b => a == b
  | timeSpan a, timeSpan b => a == b
  | guid a, guid b => a == b
  | enum d a, enum e b => d = e && a == b
  | record q as, record r bs => q = r && sameAll as bs
  | sequence as, sequence bs => sameAll as bs
  | hosted i .., hosted j .. => i == j
  | _, _ => false

def sameAll : List Value → List Value → Bool
  | [], [] => true
  | a :: as, b :: bs => same a b && sameAll as bs
  | _, _ => false

end

instance : BEq Value := ⟨same⟩

mutual

/-- The hash code of a value: of its kind and its content. -/
def hashCode : Value → HashCode
  | null => HashCode.mix 30 0
  | boolean b => HashCode.mix 31 (if b then 1 else 0)
  | char c => HashCode.mix 32 (HashCode.ofNat c.toNat)
  | string s => HashCode.mix 33 (HashCode.ofString s)
  | integer k n =>
    HashCode.mix (HashCode.mix 34 (HashCode.ofPredefined (.integer k))) (HashCode.ofInt n.val)
  | single x => HashCode.mix 35 (HashCode.ofNat (Binary.canonicalBits .single x.toBits.toNat))
  | double x => HashCode.mix 36 (HashCode.ofNat (Binary.canonicalBits .double x.toBits.toNat))
  | decimal d =>
    HashCode.mix (HashCode.mix 37 (HashCode.ofInt d.normalized.signedCoefficient))
      (HashCode.ofNat d.normalized.scale)
  | dateTime t =>
    HashCode.mixAll 38 [HashCode.ofInt t.day, HashCode.ofNat t.second, HashCode.ofNat t.nano]
  | timeSpan s => HashCode.mix 39 (HashCode.ofInt s.nanos)
  | guid g => HashCode.mix 40 (HashCode.ofNat g.bits)
  | enum e n => HashCode.mix (HashCode.mix 41 (HashCode.ofString e.name)) (HashCode.ofInt n.val)
  | record _ fields => HashCode.mix 42 (hashOfFields fields)
  | sequence items => HashCode.mix 43 (hashOfItems items)
  | hosted i .. => HashCode.mix 44 (HashCode.ofNat i)

/-- The exclusive or of the codes of the fields, whatever their order. -/
def hashOfFields : List Value → HashCode
  | [] => 0
  | v :: vs => v.hashCode ^^^ hashOfFields vs

def hashOfItems : List Value → HashCode
  | [] => 45
  | v :: vs => HashCode.mix (hashOfItems vs) v.hashCode

end

end TypedExpr.Value
