import TypedExpr.Ty.Equality

/-!
# Names of types

Predefined types are known by name in any case of ASCII letters, and a name can be followed by
`?` for null and `[]` for arrays. Every type has a text; that of a host type is its bare name.
-/

namespace TypedExpr

namespace Predefined

/-- All predefined types, in the order in which their names are listed. -/
def all : List Predefined :=
  [.object, .boolean, .char, .string, .integer .sbyte, .integer .byte, .integer .int16,
    .integer .uint16, .integer .int32, .integer .uint32, .integer .int64, .integer .uint64,
    .single, .double, .decimal, .dateTime, .timeSpan, .guid, .math, .convert]

def integerName : IntKind → String
  | .sbyte => "SByte"
  | .byte => "Byte"
  | .int16 => "Int16"
  | .uint16 => "UInt16"
  | .int32 => "Int32"
  | .uint32 => "UInt32"
  | .int64 => "Int64"
  | .uint64 => "UInt64"

def name : Predefined → String
  | object => "Object"
  | boolean => "Boolean"
  | char => "Char"
  | string => "String"
  | integer k => integerName k
  | single => "Single"
  | double => "Double"
  | decimal => "Decimal"
  | dateTime => "DateTime"
  | timeSpan => "TimeSpan"
  | guid => "Guid"
  | math => "Math"
  | convert => "Convert"

def ofName? (name : String) : Option Predefined :=
  all.find? fun p => Text.sameIgnoringCase p.name name

end Predefined

namespace Ty

mutual

def toText : Ty → String
  | predefined p => p.name
  | nullable inner => inner.toText ++ "?"
  | enum e => e.name
  | record r => r.name
  | cls c => c.name
  | sequence e => "IEnumerable<" ++ e.toText ++ ">"
  | array e => e.toText ++ "[]"
  | lambda params result => "Func<" ++ listText params ++ result.toText ++ ">"

def listText : List Ty → String
  | [] => ""
  | t :: ts => t.toText ++ ", " ++ listText ts

end

/-- The type of a text that is given from its end. -/
def ofReversedText? : List Char → Option Ty
  | [] => none
  | ']' :: '[' :: rest => (ofReversedText? rest).map array
  | '?' :: rest => do
    let inner ← ofReversedText? rest
    if inner.isValueType && !inner.isNullable then some (nullable inner) else none
  | c :: rest =>
    if Text.isWhiteSpace c then ofReversedText? rest
    else
      (Predefined.ofName? (Text.trim (String.ofList (c :: rest).reverse))).map predefined

/-- The type of a text: a predefined name with any suffixes, and blanks between them. -/
def ofText? (text : String) : Option Ty := ofReversedText? text.toList.reverse

end Ty
end TypedExpr
