import TypedExpr.Operand
import TypedExpr.Token

/-!
# Literals

What the token of a literal stands for. An integer takes the smallest type that holds it: of 32
or 64 bits, signed before unsigned, and signed only when it is negative. A real number is a double,
or a single with its suffix. Text stands between double quotes, a character between single ones.
-/

namespace TypedExpr

namespace Operand

/-- The smallest word that holds an integer literal. -/
def integerValue? (text : List Char) : Option Value :=
  match text with
  | '-' :: _ => do
    let n ← Read.intWithin? IntKind.int64.low IntKind.int64.high text
    firstFit n [.int32, .int64]
  | _ => do
    let n ← Read.intWithin? IntKind.uint64.low IntKind.uint64.high text
    firstFit n [.int32, .uint32, .int64, .uint64]
where
  firstFit (n : Int) (kinds : List IntKind) : Option Value :=
    kinds.findSome? fun k => (k.ofInt? n).map (.integer k)

def ofInteger (t : Token) : Except Diagnostic Operand :=
  match integerValue? t.text.toList with
  | some v => .ok (literal v t.text)
  | none => .error ⟨.invalidInteger t.text, t.pos⟩

/-- The number of a real literal: a single if it ends with a suffix. -/
def realValue? (text : List Char) : Option Value :=
  match text.getLast? with
  | some c =>
    if c = 'f' ∨ c = 'F' then (Read.float32? text.dropLast).map .single
    else (Read.float? text).map .double
  | none => none

def ofReal (t : Token) : Except Diagnostic Operand :=
  match realValue? t.text.toList with
  | some v => .ok (literal v t.text)
  | none => .error ⟨.invalidReal t.text, t.pos⟩

/-- The text between quotes, with doubled quotes made single. -/
def unquote (text : List Char) : List Char :=
  match text with
  | [] => []
  | quote :: rest => Text.replaceFrom [quote, quote] [quote] 0 rest.dropLast

/-- A text literal, or a character literal, which holds exactly one. -/
def ofQuoted (t : Token) : Except Diagnostic Operand :=
  let inner := unquote t.text.toList
  if t.text.toList.head? = some '\'' then
    match inner with
    | [c] => .ok (literal (.char c) (String.ofList inner))
    | _ => .error ⟨.invalidCharacterLiteral, t.pos⟩
  else .ok (literal (.string (String.ofList inner)) (String.ofList inner))

end Operand
end TypedExpr
