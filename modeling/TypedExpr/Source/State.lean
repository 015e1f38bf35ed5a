import TypedExpr.Operand.Literal
import TypedExpr.Operand.Member
import TypedExpr.Operand.Operator
import TypedExpr.RecordCache
import TypedExpr.Token.Lexer

/-!
# Reading a token at a time

A reader of expressions looks at one token and passes on to the next. It fails at the first error;
the record types made up to then stay made. What names mean does not change while a part is read
and is given to its reader from outside.
-/

namespace TypedExpr

/-- What the host makes visible under a name or a number. -/
inductive External where
  /-- A value, as a constant. -/
  | value (v : Value)
  /-- An expression as it is; a function can be called. -/
  | expr (e : Expr)
  /-- Names for further externals. -/
  | symbols (table : List (String × External))

namespace Source

/-- What names mean. -/
structure Env where
  /-- Parameters and numbered externals, under names in any case. -/
  symbols : CaseMap External
  /-- Further externals, under exact names. -/
  externals : List (String × External)
  /-- The receiver of members without one. -/
  receiver : Option Parameter
  /-- A number that no parameter has. -/
  nextId : Nat
  /-- How deep expressions may be nested. -/
  maxDepth : Nat

/-- The place in the text, and the record types made so far. -/
structure State where
  token : Token
  rest : TokenRun
  cache : RecordCache

/-- Readers of parts of a text. -/
abbrev Reader (α : Type) := EStateM Diagnostic State α

namespace Reader

def token : Reader Token := do return (← get).token

def failAt {α : Type} (pos : Nat) (p : Problem) : Reader α := throw ⟨p, pos⟩

def fail {α : Type} (p : Problem) : Reader α := do failAt (← token).pos p

def check {α : Type} : Except Diagnostic α → Reader α
  | .ok a => pure a
  | .error e => throw e

def next : Reader Unit := do
  let s ← get
  match s.rest with
  | .token t rest => set { s with token := t, rest }
  | .failed e => throw e
  | .done pos => set { s with token := Token.atEnd pos }

def isAt (kind : TokenKind) : Reader Bool := do return (← token).kind == kind

def expect (kind : TokenKind) (p : Problem) : Reader Unit := do
  unless ← isAt kind do fail p

def skip (kind : TokenKind) (p : Problem) : Reader Unit := do
  expect kind p
  next

/-- A bound on the number of tokens that are still to come. -/
def remaining : Reader Nat := do return (← get).rest.length + 1

/-- An identifier without the sign before it. -/
def identifier : Reader String := do
  expect .identifier .identifierExpected
  let name := (← token).text
  return match name.toList with
    | '@' :: c :: cs => String.ofList (c :: cs)
    | _ => name

/-- One or more items between commas, at most so many after the first. -/
def itemsUpTo {α : Type} (item : Reader α) : Nat → Reader (List α)
  | 0 => do return [← item]
  | n + 1 => do
    let a ← item
    if ← isAt .comma then
      next
      let as ← itemsUpTo item n
      return a :: as
    else return [a]

def items {α : Type} (item : Reader α) : Reader (List α) := do itemsUpTo item (← remaining)

/-- The record type of a shape. -/
def recordType (shape : List Property) (pos : Nat) : Reader RecordType := do
  let s ← get
  match s.cache.getOrCreate shape with
  | .ok (r, cache) =>
    set { s with cache }
    return r
  | .error e => failAt pos (.invalidProjection e.message)

end Reader
end Source
end TypedExpr
