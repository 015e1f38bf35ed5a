import TypedExpr.Source.State

/-!
# The grammar of expressions

From the loosest: a conditional, operators by their precedence, operators on one operand, and a
primary expression with members and indexes after it. Every part is type-checked when it is
complete. An expression within an expression, and an operand after an operator on one operand, is
one level deeper; what reads them is given from outside, so that only the number of levels has to
be counted.
-/

namespace TypedExpr.Source

open Reader

/-- Readers of expressions under the meanings of names. -/
abbrev Part := Env → Reader Operand

/-- No further level is left. -/
def tooDeep : Part := fun env => fail (.nestingTooDeep env.maxDepth)

/-- Arguments between parentheses, perhaps none. -/
def argumentList (expression : Reader Operand) : Reader (List Operand) := do
  skip .openParen .openParenExpected
  let args ← if ← isAt .closeParen then pure [] else items expression
  skip .closeParen .closeParenOrCommaExpected
  return args

/-- A member of a target, or of a type, and its arguments if it is called. On a sequence a call is
an operation on its items, and the bare members in its argument are those of an item. -/
def memberAccess (expression : Part) (env : Env) (t : Ty) (target : Option Operand) :
    Reader Operand := do
  let pos := (← token).pos
  let name ← identifier
  next
  if !(← isAt .openParen) then check (Operand.property t target name pos)
  else
    match target, Operand.itemTy? t with
    | some source, some element =>
      -- the item takes the place of the receiver, under a number that no parameter has
      let item : Parameter := ⟨env.nextId, "", element⟩
      let args ← argumentList
        (expression { env with receiver := some item, nextId := env.nextId + 1 })
      check (source.aggregate item name args pos)
    | _, _ =>
      let args ← argumentList (expression env)
      check (Operand.method t target name args pos)

def elementAccess (expression : Part) (env : Env) (target : Operand) : Reader Operand := do
  let pos := (← token).pos
  skip .openBracket .openParenExpected
  let args ← items (expression env)
  skip .closeBracket .closeBracketOrCommaExpected
  check (target.index args pos)

/-- Members and indexes after an expression, at most so many. -/
def postfixesUpTo (expression : Part) (env : Env) : Nat → Operand → Reader Operand
  | 0, o => pure o
  | n + 1, o => do
    if ← isAt .dot then
      next
      let o ← memberAccess expression env o.ty (some o)
      postfixesUpTo expression env n o
    else if ← isAt .openBracket then
      let o ← elementAccess expression env o
      postfixesUpTo expression env n o
    else pure o

def parenthesized (expression : Part) (env : Env) : Reader Operand := do
  next
  let o ← expression env
  skip .closeParen .closeParenOrOperatorExpected
  return o

def iif (expression : Part) (env : Env) : Reader Operand := do
  let pos := (← token).pos
  next
  match ← argumentList (expression env) with
  | [test, whenTrue, whenFalse] => check (Operand.conditional test whenTrue whenFalse pos)
  | _ => failAt pos .iifNeedsThreeArguments

/-- One property of a projection: an expression and its name, which a member can lend. -/
def projectionItem (expression : Part) (env : Env) : Reader (String × Expr) := do
  let pos := (← token).pos
  let e := (← expression env).expr
  if (← token).isWord "as" then
    next
    let name ← identifier
    next
    return (name, e)
  else
    match e.memberName? with
    | some name => return (name, e)
    | none => failAt pos .missingAs

def projection (expression : Part) (env : Env) : Reader Operand := do
  let pos := (← token).pos
  next
  skip .openParen .openParenExpected
  let fields ← items (projectionItem expression env)
  skip .closeParen .closeParenOrCommaExpected
  let r ← recordType (fields.map fun (name, e) => ⟨name, e.ty⟩) pos
  return .plain (.newRecord r (fields.map (·.2)))

/-- A static member of a type, or a value made or converted by it. -/
def typeAccess (expression : Part) (env : Env) (p : Predefined) : Reader Operand := do
  let pos := (← token).pos
  next
  let t ← if ← isAt .question then nullableForm pos (.predefined p) else pure (.predefined p)
  if ← isAt .openParen then
    let args ← argumentList (expression env)
    check (Operand.construct t args pos)
  else
    skip .dot .dotOrOpenParenExpected
    memberAccess expression env t none
where
  nullableForm (pos : Nat) (t : Ty) : Reader Ty := do
    if !t.isValueType then failAt pos (.noNullableForm t.toText)
    next
    return .nullable t

/-- What the host has put under a name; a function can be called. -/
def symbol (expression : Part) (env : Env) (external : External) : Reader Operand := do
  let t ← token
  let e ← match external with
    | .value v => pure (.constant v v.typeOf)
    | .expr e => pure e
    | .symbols _ => fail (.notAValue t.text)
  next
  match e with
  | .lambda l =>
    if ← isAt .openParen then
      let args ← argumentList (expression env)
      check (Operand.invoke l args t.pos)
    else return .plain e
  | e => return .plain e

/-- What is put under a name: first under any case, then exactly. -/
def Env.symbol? (env : Env) (name : String) : Option External :=
  match env.symbols.get? name with
  | some external => some external
  | none => (env.externals.find? fun s => s.1 == name).map (·.2)

def named (expression : Part) (env : Env) : Reader Operand := do
  let t ← token
  if t.isWord "true" then
    next
    return .plain (.constant (.boolean true) .boolean)
  else if t.isWord "false" then
    next
    return .plain (.constant (.boolean false) .boolean)
  else if t.isWord "null" then
    next
    return .nullLiteral
  else if t.isWord "it" then
    match env.receiver with
    | some p =>
      next
      return .plain (.parameter p)
    | none => fail .noItInScope
  else if t.isWord "iif" then iif expression env
  else if t.isWord "new" then projection expression env
  else
    -- types hide what the host has put under their names, and that hides members
    match Predefined.ofName? t.text, env.symbol? t.text, env.receiver with
    | some p, _, _ => typeAccess expression env p
    | none, some external, _ => symbol expression env external
    | none, none, some p => memberAccess expression env p.ty (some (.plain (.parameter p)))
    | none, none, none => fail (.unknownIdentifier t.text)

def literal (o : Except Diagnostic Operand) : Reader Operand := do
  let o ← check o
  next
  return o

/-- The beginning of a primary expression. -/
def primaryStart (expression : Part) (env : Env) : Reader Operand := do
  let t ← token
  match t.kind with
  | .identifier => named expression env
  | .stringLiteral => literal (Operand.ofQuoted t)
  | .integerLiteral => literal (Operand.ofInteger t)
  | .realLiteral => literal (Operand.ofReal t)
  | .openParen => parenthesized expression env
  | _ => fail .expressionExpected

def primary (expression : Part) (env : Env) : Reader Operand := do
  let o ← primaryStart expression env
  postfixesUpTo expression env (← remaining) o

def isNumber (t : Token) : Bool := t.kind == .integerLiteral || t.kind == .realLiteral

/-- An operator on one operand, or a primary expression. A minus belongs to the number after it,
so that the least number of each type can be written. -/
def unaryOf (operand expression : Part) (env : Env) : Reader Operand := do
  let t ← token
  match t.unaryOp? with
  | none => primary expression env
  | some op =>
    next
    let number ← token
    if t.kind = .minus ∧ isNumber number then
      -- the number is read with its sign, from the place of the minus on
      modify fun s => { s with token := ⟨number.kind, "-" ++ number.text, t.pos⟩ }
      primary expression env
    else
      let o ← operand env
      check (Operand.unary t op o)

/-- Further operands behind operators of one precedence, at most so many. -/
def joinUpTo (level : Precedence) (operand : Reader Operand) : Nat → Operand → Reader Operand
  | 0, left => pure left
  | n + 1, left => do
    let t ← token
    if t.precedence? = some level then
      next
      let right ← operand
      let joined ← check (Operand.binary t left right)
      joinUpTo level operand n joined
    else pure left

/-- Operands joined from left to right by operators of one precedence. -/
def joined (level : Precedence) (operand : Reader Operand) : Reader Operand := do
  let left ← operand
  joinUpTo level operand (← remaining) left

def binaryOf (operand : Reader Operand) : Reader Operand :=
  joined .or (joined .and (joined .comparison (joined .additive (joined .multiplicative operand))))

/-- An expression, given what reads operands and expressions one level deeper. -/
def expressionOf (operand expression : Part) (env : Env) : Reader Operand := do
  let pos := (← token).pos
  let test ← binaryOf (operand env)
  if ← isAt .question then
    next
    let whenTrue ← expression env
    skip .colon .colonExpected
    let whenFalse ← expression env
    check (Operand.conditional test whenTrue whenFalse pos)
  else return test

mutual

/-- An expression for which so many levels are left. -/
def expressionAt : Nat → Part
  | 0 => tooDeep
  | n + 1 => fun env s => expressionOf (operandAt n) (expressionAt n) env s

/-- An operand for whose parts so many levels are left. -/
def operandAt : Nat → Part
  | 0 => fun env s => unaryOf tooDeep tooDeep env s
  | n + 1 => fun env s =>
    unaryOf (operandAt n) (expressionOf (operandAt n) (expressionAt n)) env s

end

/-- A whole text as one expression, in a type that it goes to if one is asked for. -/
def wholeExpression (resultTy : Option Ty) (env : Env) : Reader Expr := do
  let pos := (← token).pos
  let o ← expressionAt env.maxDepth env
  let e ← match resultTy with
    | none => pure o.expr
    | some t =>
      match o.promote? t true with
      | some o => pure o.expr
      | none => failAt pos (.typeMismatch t.toText)
  expect .endOfText .syntaxError
  return e

/-- A direction behind a key; without one the order is ascending. -/
def isAscending : Reader Bool := do
  let t ← token
  if t.isWord "asc" || t.isWord "ascending" then
    next
    return true
  else if t.isWord "desc" || t.isWord "descending" then
    next
    return false
  else return true

def orderingKey (env : Env) : Reader OrderingKey := do
  let o ← expressionAt env.maxDepth env
  let ascending ← isAscending
  return ⟨o.expr, ascending⟩

def wholeOrdering (env : Env) : Reader (List OrderingKey) := do
  let keys ← items (orderingKey env)
  expect .endOfText .syntaxError
  return keys

end TypedExpr.Source
