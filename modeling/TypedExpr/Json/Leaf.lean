import TypedExpr.Json.Writer
import TypedExpr.Value

/-!
# Types of leaves

A leaf of a document is judged by its text, whatever it was written as: a number if it reads as
one, else an identifier, else text. The words for true and false read as neither and stay text.
-/

namespace TypedExpr.Json

/-- The text of a leaf; null has none. -/
def leafText? : Json → Option String
  | null => none
  | bool b => some (if b then "True" else "False")
  | string s => some s
  | j => some j.compact

/-- The names of the numbers that have no digits. -/
def namedNumber? (word : String) : Option Float :=
  match word with
  | "NaN" => some (0 / 0)
  | "Infinity" | "+Infinity" => some (1 / 0)
  | "-Infinity" => some (-1 / 0)
  | _ => none

/-- The part of a number before its point and exponent. -/
def isIntegral (c : Char) : Bool := !(c == '.' || c == 'e' || c == 'E')

def isNumeral (c : Char) : Bool :=
  Text.isDigit c || c == '+' || c == '-' || !isIntegral c

/-- A number without the separators of thousands in its integral part. None may come first, after
the signs, or last. -/
def withoutSeparators? (cs : List Char) : Option (List Char) :=
  let integral := cs.takeWhile isIntegral
  let unsigned := integral.dropWhile fun c => c == '+' || c == '-'
  if unsigned.head? = some ',' ∨ integral.getLast? = some ',' then none
  else some (integral.filter (· != ',') ++ cs.dropWhile isIntegral)

def leafFloat? (text : String) : Option Float :=
  let cs := Text.trimChars text.toList
  namedNumber? (String.ofList cs) <|> do
    let body ← withoutSeparators? cs
    if body.any Text.isDigit && body.all isNumeral then Read.float? body else none

/-- The digits of a field, at least one and at most `width`, after their mark. -/
def hexField? (width : Nat) (cs : List Char) : Option Nat := do
  let digits ← Text.dropHead? "0x".toList cs <|> Text.dropHead? "0X".toList cs
  if !digits.isEmpty && digits.length ≤ width && digits.all Text.isHexDigit then
    some (Guid.natOfHex digits)
  else none

/-- Fields of so many digits one after the other, as one number. -/
def hexFields? : (widths : List Nat) → (n : Nat) → List (List Char) → Option Nat
  | [], n, [] => some n
  | w :: ws, n, cs :: rest => do hexFields? ws (n * 16 ^ w + (← hexField? w cs)) rest
  | _, _, _ => none

/-- The part of a text before a comma with an opening brace, and the part after it. -/
def splitAtTail? (cs : List Char) : Option (List Char × List Char) :=
  (Text.positionOf? [',', '\x7b'] cs).map fun i => (cs.take i, cs.drop (i + 2))

/-- An identifier as three fields and, in braces of their own, its last eight bytes. Blanks may
stand anywhere. -/
def fieldsGuid? (cs : List Char) : Option Guid := do
  let compact := cs.filter (!Text.isWhiteSpace ·)
  let body ← Guid.between? ['\x7b'] ['\x7d', '\x7d'] compact
  let (head, tail) ← splitAtTail? body
  let high ← hexFields? [8, 4, 4] 0 (Text.splitAll ',' head)
  let low ← hexFields? (List.replicate 8 2) 0 (Text.splitAll ',' tail)
  return Guid.ofNat (high * 2 ^ 64 + low)

/-- The identifier that a text reads as: its digits, digits in groups, these in braces or
parentheses, or fields. -/
def leafGuid? (text : String) : Option Guid :=
  let cs := Text.trimChars text.toList
  match cs with
  | '(' :: inner => (Text.dropTail? [')'] inner).bind Guid.ofHyphenated?
  | '\x7b' :: '0' :: 'x' :: _ | '\x7b' :: '0' :: 'X' :: _ => fieldsGuid? cs
  | _ =>
    Guid.ofDigits? cs <|> Guid.ofHyphenated? cs <|>
      (Guid.between? ['\x7b'] ['\x7d'] cs).bind Guid.ofHyphenated?

/-- The type and the value that a leaf is taken for. Null is a missing text. -/
def inferred (leaf : Json) : Ty × Value :=
  match leaf.leafText? with
  | none => (.string, .null)
  | some text =>
    match leafFloat? text with
    | some x => (.double, .double x)
    | none =>
      match leafGuid? text with
      | some g => (.guid, .guid g)
      | none => (.string, .string text)

/-- The value that a leaf is written as. -/
def decoded : Json → Value
  | bool b => .boolean b
  | int n =>
    match IntKind.int64.ofInt? n with
    | some w => .integer .int64 w
    | none => .double (Binary.floatOfInt n)
  | float x => .double x
  | string s => .string s
  | _ => .null

end TypedExpr.Json
