import TypedExpr.Binary.Reader

/-!
# Integers of fixed width

Eight kinds of integer, with or without a sign and of 8 to 64 bits. A word of a kind is an
integer within the bounds of the kind. Wrapping brings every integer into the bounds by a multiple
of the number of words.
-/

namespace TypedExpr

inductive IntKind where
  | sbyte
  | byte
  | int16
  | uint16
  | int32
  | uint32
  | int64
  | uint64
  deriving DecidableEq, Repr

namespace IntKind

def isSigned : IntKind → Bool
  | sbyte | int16 | int32 | int64 => true
  | byte | uint16 | uint32 | uint64 => false

def size : IntKind → Nat
  | sbyte | byte => 2 ^ 8
  | int16 | uint16 => 2 ^ 16
  | int32 | uint32 => 2 ^ 32
  | int64 | uint64 => 2 ^ 64

def low (k : IntKind) : Int := if k.isSigned then -(k.size / 2 : Nat) else 0

def high (k : IntKind) : Int := k.low + k.size - 1

/-- Every word of `k` is a word of `k'`. -/
def fits (k k' : IntKind) : Bool := k'.low ≤ k.low && k.high ≤ k'.high

/-- An integer within the bounds of a kind. -/
structure Word (k : IntKind) where
  val : Int
  low_le : k.low ≤ val
  le_high : val ≤ k.high
  deriving DecidableEq, Repr

/-- The word that differs from `n` by a multiple of the number of words. -/
def wrap (k : IntKind) (n : Int) : Word k :=
  ⟨k.low + (n - k.low) % k.size, by
    have := Int.emod_nonneg (n - k.low) (b := k.size) (by cases k <;> decide)
    omega, by
    have := Int.emod_lt_of_pos (n - k.low) (b := k.size) (by cases k <;> decide)
    unfold high
    omega⟩

/-- The word equal to `n`, if it is within the bounds. -/
def ofInt? (k : IntKind) (n : Int) : Option (Word k) :=
  if h : k.low ≤ n ∧ n ≤ k.high then some ⟨n, h.1, h.2⟩ else none

def ofText? (k : IntKind) (cs : List Char) : Option (Word k) :=
  (Read.intWithin? k.low k.high cs).bind k.ofInt?

end IntKind

/-- The words that number the members of an enumeration. -/
abbrev MemberNumber := IntKind.Word .int64

end TypedExpr
