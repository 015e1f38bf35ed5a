import TypedExpr.Power
import TypedExpr.Text.Search

/-!
# Identifiers of 128 bits

An identifier is written with thirty-two small hexadecimal digits in groups of 8, 4, 4, 4 and 12,
separated by hyphens. It reads back in this form, without hyphens, in braces, and as a name in
the `urn:uuid:` space, with digits of either case.
-/

namespace TypedExpr

structure Guid where
  bits : Nat
  bits_lt : bits < 2 ^ 128
  deriving DecidableEq, Repr

namespace Guid

/-- The identifier with these bits; higher ones are ignored. -/
def ofNat (n : Nat) : Guid := ⟨n % 2 ^ 128, Nat.mod_lt _ (by decide)⟩

/-- The identifier without a bit set. -/
def empty : Guid := ofNat 0

def compare (a b : Guid) : Ordering := Ord.compare a.bits b.bits

/-- The lengths of the groups of digits. -/
def groups : List Nat := [8, 4, 4, 4, 12]

def digitValue (c : Char) : Nat :=
  if Text.isDigit c then c.toNat - '0'.toNat else (c.toLower.toNat - 'a'.toNat) + 10

def natOfHex (digits : List Char) : Nat := digits.foldl (fun n c => 16 * n + digitValue c) 0

def hexDigits (count n : Nat) : List Char :=
  (List.range count).reverse.map fun i => Nat.digitChar (n / 16 ^ i % 16)

def hyphenate (digits : List Char) : List Nat → List Char
  | [] => []
  | [n] => digits.take n
  | n :: rest => digits.take n ++ '-' :: hyphenate (digits.drop n) rest

def toText (g : Guid) : String := String.ofList (hyphenate (hexDigits 32 g.bits) groups)

def ofDigits? (cs : List Char) : Option Guid :=
  if cs.length = 32 && cs.all Text.isHexDigit then some (ofNat (natOfHex cs)) else none

/-- The digits between hyphens that stand where the groups end. -/
def ungroup? (cs : List Char) : List Nat → Option (List Char)
  | [] => if cs.isEmpty then some [] else none
  | [n] => if cs.length = n then some cs else none
  | n :: rest =>
    match cs.drop n with
    | '-' :: tail => (ungroup? tail rest).map (cs.take n ++ ·)
    | _ => none

def ofHyphenated? (cs : List Char) : Option Guid := (ungroup? cs groups).bind ofDigits?

def between? (opening closing : List Char) (cs : List Char) : Option (List Char) :=
  (Text.dropHead? opening cs).bind (Text.dropTail? closing)

/-- Read any of the forms. -/
def ofText? (cs : List Char) : Option Guid :=
  ofDigits? cs <|> ofHyphenated? cs <|>
    (between? ['\x7b'] ['\x7d'] cs).bind ofHyphenated? <|>
    (Text.dropHead? "urn:uuid:".toList cs).bind ofHyphenated?

end Guid
end TypedExpr
