import TypedExpr.Builtin
import TypedExpr.Eval.Argument
import TypedExpr.Value.Text

/-!
# Members of strings and characters

Positions and lengths count characters from zero. A position that does not exist is an error, and
searching for what is not there gives minus one.
-/

namespace TypedExpr

namespace StringMethod

/-- The part of a text from a place on, of a given length or up to the end. -/
def slice (s : List Char) (start : Int) (length : Option Int) : Outcome Value := do
  if start < 0 then throw .indexOutOfRange
  let length := length.getD (s.length - start)
  if length < 0 || start + length > s.length then throw .indexOutOfRange
  return .string (String.ofList ((s.drop start.toNat).take length.toNat))

/-- The first place of a text or character, or minus one. -/
def placeOf (s : List Char) (word : List Char) : Value :=
  match Text.positionOf? word s with
  | some i => .int32 i
  | none => .int32 (-1)

/-- The texts in order: null comes first. -/
def compareValues : Value → Value → Outcome Ordering
  | .null, .null => .ok .eq
  | .null, _ => .ok .lt
  | _, .null => .ok .gt
  | a, b => do
    let s ← a.asText
    let t ← b.asText
    return Text.compareTexts s t

/-- Replace the occurrences of a text or a character. The new text may be null for none. -/
def replaceIn (s : String) : Value → Value → Outcome Value
  | .char old, .char new =>
    .ok (.string (String.ofList (s.toList.map fun c => if c = old then new else c)))
  | old, new => do
    let old ← old.asText
    if old.isEmpty then throw (.invalidArgument "String cannot be of zero length")
    let new ← if new.isNull then pure "" else new.asText
    return .string (Text.replace old new s)

def orderNumber : Ordering → Int
  | .lt => -1
  | .eq => 0
  | .gt => 1

/-- The character at a place; the receiver counts as empty when it is no text. -/
def charIn (receiver : Value) (index : Int) : Outcome Value :=
  let chars := match receiver with
    | .string s => s.toList
    | _ => []
  if index < 0 then .error .indexOutOfRange
  else Outcome.ofOption .indexOutOfRange (chars[index.toNat]?.map .char)

def call (m : StringMethod) (receiver : Value) (args : List Value) : Outcome Value :=
  match m with
  | charAt => do charIn receiver (← intArgument args 0)
  | contains => do
    let s ← receiver.asText
    let t ← textArgument args 0
    return .boolean (Text.positionOf? t.toList s.toList).isSome
  | startsWith => do
    let s ← receiver.asText
    let t ← textArgument args 0
    return .boolean (Text.dropHead? t.toList s.toList).isSome
  | endsWith => do
    let s ← receiver.asText
    let t ← textArgument args 0
    return .boolean (Text.dropTail? t.toList s.toList).isSome
  | indexOf => do
    let s ← receiver.asText
    match ← argument args 0 with
    | .char c => return placeOf s.toList [c]
    | v => return placeOf s.toList (← v.asText).toList
  | substring => do
    let s ← receiver.asText
    let start ← intArgument args 0
    if start < 0 then throw .indexOutOfRange
    let length ← args[1]?.mapM Value.asInt32
    slice s.toList start length
  | toUpper => do return .string (Text.toUppercase (← receiver.asText))
  | toLower => do return .string (Text.toLowercase (← receiver.asText))
  | trim => do return .string (Text.trim (← receiver.asText))
  | replace => do
    let s ← receiver.asText
    let old ← argument args 0
    let new ← argument args 1
    replaceIn s old new
  | concat => .ok (.string (String.join (args.map Value.toText)))
  | compare => do
    let a ← argument args 0
    let b ← argument args 1
    return .int32 (orderNumber (← compareValues a b))
  | isNullOrEmpty => do
    let v ← argument args 0
    if v.isNull then return .boolean true else return .boolean (← v.asText).isEmpty

end StringMethod

namespace CharMethod

/-- Call a method of characters. A letter whose other case has several characters becomes the
first of them. -/
def call (m : CharMethod) (args : List Value) : Outcome Value := do
  let c ← charArgument args 0
  return match m with
    | isDigit => .boolean (Text.isNumeric c)
    | isLetter => .boolean (Text.isAlphabetic c)
    | isWhiteSpace => .boolean (Text.isWhiteSpace c)
    | isUpper => .boolean (Text.isUppercase c)
    | isLower => .boolean (Text.isLowercase c)
    | toUpper => .char ((Text.upperChar c).headD c)
    | toLower => .char ((Text.lowerChar c).headD c)

end CharMethod
end TypedExpr
