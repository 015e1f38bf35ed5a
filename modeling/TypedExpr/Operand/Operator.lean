import TypedExpr.OperatorTypes
import TypedExpr.Overload
import TypedExpr.Token

/-!
# Operators between operands

The signs and words for operators, how tightly they bind, and what they make of their operands.
Both operands are brought to the types of one signature; texts are joined and compared by the
methods of their type, and references are compared where one type is above the other.
-/

namespace TypedExpr

/-- How tightly operators bind, the loosest first. -/
inductive Precedence where
  | or
  | and
  | comparison
  | additive
  | multiplicative
  deriving DecidableEq, Repr

namespace Token

/-- How tightly the token binds, if it joins two operands. -/
def precedence? (t : Token) : Option Precedence :=
  match t.kind with
  | .doubleBar => some .or
  | .doubleAmpersand => some .and
  | .equal | .doubleEqual | .exclamationEqual | .lessGreater | .lessThan | .lessThanEqual
  | .greaterThan | .greaterThanEqual => some .comparison
  | .plus | .minus | .ampersand => some .additive
  | .asterisk | .slash | .percent => some .multiplicative
  | _ =>
    if t.isWord "or" then some .or
    else if t.isWord "and" then some .and
    else if t.isWord "mod" then some .multiplicative
    else none

/-- The operator that the token writes. Joining texts is none of them. -/
def binaryOp? (t : Token) : Option BinaryOp :=
  match t.kind with
  | .plus => some .add
  | .minus => some .subtract
  | .asterisk => some .multiply
  | .slash => some .divide
  | .percent => some .modulo
  | .equal | .doubleEqual => some .equal
  | .exclamationEqual | .lessGreater => some .notEqual
  | .lessThan => some .less
  | .lessThanEqual => some .lessEqual
  | .greaterThan => some .greater
  | .greaterThanEqual => some .greaterEqual
  | .doubleAmpersand => some .and
  | .doubleBar => some .or
  | _ =>
    if t.isWord "and" then some .and
    else if t.isWord "or" then some .or
    else if t.isWord "mod" then some .modulo
    else none

/-- The operator on one operand that the token writes. -/
def unaryOp? (t : Token) : Option UnaryOp :=
  match t.kind with
  | .minus => some .negate
  | .exclamation => some .not
  | _ => if t.isWord "not" then some .not else none

end Token

namespace Operand

/-- A value as a reference. -/
def boxed (o : Operand) : Expr :=
  if o.ty.isValueType then .convert false o.expr .object else o.expr

def concat (l r : Operand) : Operand :=
  plain (.call none .string concatMethod [l.boxed, r.boxed])

def mismatch (t : Token) (l r : Operand) : Diagnostic :=
  ⟨.incompatibleOperands t.text l.ty.toText r.ty.toText, t.pos⟩

def promoteBoth (c : OperatorClass) (t : Token) (l r : Operand) :
    Except Diagnostic (Operand × Operand) :=
  match Overload.resolveLayers id [l, r] c.layers with
  | .found _ _ [l', r'] => .ok (l', r')
  | _ => .error (mismatch t l r)

/-- Bring two references to one type: one of them must be above the other. -/
def relateReferences (t : Token) (l r : Operand) : Except Diagnostic (Operand × Operand) :=
  if l.ty = r.ty then .ok (l, r)
  else if l.ty.isAssignableFrom r.ty then .ok (l, plain (.convert false r.expr l.ty))
  else if r.ty.isAssignableFrom l.ty then .ok (plain (.convert false l.expr r.ty), r)
  else .error (mismatch t l r)

/-- Bring two operands, of which one is of an enumeration, to one type. -/
def relateEnums (t : Token) (l r : Operand) : Except Diagnostic (Operand × Operand) :=
  if l.ty = r.ty then .ok (l, r)
  else
    match r.promote? l.ty true, l.promote? r.ty true with
    | some r', _ => .ok (l, r')
    | none, some l' => .ok (l', r)
    | none, none => .error (mismatch t l r)

/-- The operator asks for equality. -/
def isEquality (op : BinaryOp) : Bool := op == .equal || op == .notEqual

/-- Bring the operands of a comparison to one type. -/
def relate (t : Token) (op : BinaryOp) (l r : Operand) : Except Diagnostic (Operand × Operand) :=
  if isEquality op && !l.ty.isValueType && !r.ty.isValueType then relateReferences t l r
  else if l.ty.isEnum || r.ty.isEnum then relateEnums t l r
  else promoteBoth (OperatorClass.ofBinary op) t l r

/-- A comparison. Which of two texts is greater is a matter of their compared value. -/
def compared (t : Token) (op : BinaryOp) (l r : Operand) : Except Diagnostic Operand := do
  let (l, r) ← relate t op l r
  if !isEquality op && l.ty = .string then
    -- the method tells the order by the sign of a number
    let order : Expr := .call none .string compareMethod [l.expr, r.expr]
    return plain (.binary op order (.constant (.int32 0) .int32) .boolean)
  else return plain (.binary op l.expr r.expr .boolean)

/-- The type of an arithmetic or logical result: that of the left operand, but a difference of
dates is a span of time. -/
def resultTy (op : BinaryOp) (l r : Ty) : Ty :=
  if op = .subtract ∧ l.nonNullable = .dateTime ∧ r.nonNullable = .dateTime then
    if l.isNullable then .nullable .timeSpan else .timeSpan
  else l

/-- Two operands joined by the operator that a token writes. -/
def binary (t : Token) (l r : Operand) : Except Diagnostic Operand :=
  if t.kind = .ampersand ∨ t.kind = .plus ∧ (l.ty = .string ∨ r.ty = .string) then
    .ok (concat l r)
  else
    match t.binaryOp? with
    | none => .error ⟨.syntaxError, t.pos⟩
    | some op =>
      if op.isComparison then compared t op l r
      else do
        let (l, r) ← promoteBoth (OperatorClass.ofBinary op) t l r
        return plain (.binary op l.expr r.expr (resultTy op l.ty r.ty))

def unaryClass : UnaryOp → OperatorClass
  | .negate => .negation
  | .not => .complement

def unary (t : Token) (op : UnaryOp) (o : Operand) : Except Diagnostic Operand :=
  match Overload.resolveLayers id [o] (unaryClass op).layers with
  | .found _ _ [o'] => .ok (plain (.unary op o'.expr))
  | _ => .error ⟨.incompatibleOperand t.text o.ty.toText, t.pos⟩

/-- How an operand is named among branches. -/
def branchName (o : Operand) : String := if o.isNull then "null" else o.ty.toText

/-- Bring a branch to the type of the other one, which must be more than the word `null`. -/
def toBranch? (o other : Operand) : Option Operand :=
  if other.isNull then none else o.promote? other.ty true

/-- A choice between two branches, of which exactly one must go to the type of the other if the
types differ. -/
def conditional (test whenTrue whenFalse : Operand) (pos : Nat) : Except Diagnostic Operand :=
  if test.ty ≠ .boolean then .error ⟨.testNotBoolean, pos⟩
  else if whenTrue.ty = whenFalse.ty then
    .ok (plain (.conditional test.expr whenTrue.expr whenFalse.expr))
  else
    match whenTrue.toBranch? whenFalse, whenFalse.toBranch? whenTrue with
    | some t, none => .ok (plain (.conditional test.expr t.expr whenFalse.expr))
    | none, some f => .ok (plain (.conditional test.expr whenTrue.expr f.expr))
    -- each branch could give way to the other, and nothing tells which should
    | some _, some _ =>
      .error ⟨.bothConvert whenTrue.branchName whenFalse.branchName, pos⟩
    | none, none =>
      .error ⟨.neitherConverts whenTrue.branchName whenFalse.branchName, pos⟩

end Operand
end TypedExpr
