import TypedExpr.Eval.Aggregate
import TypedExpr.Eval.Conversion
import TypedExpr.Eval.Members
import TypedExpr.Expr

/-!
# Evaluation

The value of an expression under values for its parameters. Parts are evaluated from left to
right, and the first error is the error of the whole. The functions of the host are given from
outside.
-/

namespace TypedExpr

/-- Values of parameters, the innermost first. -/
abbrev Scope := List (Parameter × Value)

namespace Scope

def lookup (scope : Scope) (p : Parameter) : Outcome Value :=
  Outcome.ofOption (.unsupported ("unbound parameter '" ++ p.name ++ "'"))
    ((scope.find? fun b => b.1.id == p.id).map (·.2))

/-- Give parameters values, each within the scope of those before it. -/
def bind (scope : Scope) (params : List Parameter) (args : List Value) : Scope :=
  (params.zip args).reverse ++ scope

end Scope

def Value.itemAt (target index : Value) : Outcome Value := do
  if target.isNull then throw .nullReference
  let items ← Outcome.ofOption (.cast target (.array .object)) target.items?
  let i ← Outcome.ofOption .noValue index.toInt?
  if i < 0 then throw .indexOutOfRange
  Outcome.ofOption .indexOutOfRange items[i.toNat]?

/-- The items that an operation goes through. -/
def Value.itemsOf (source : Value) : Outcome (List Value) :=
  if source.isNull then .error .nullReference
  else Outcome.ofOption (.cast source (.sequence .object)) source.items?

/-- And and or with null for unknown. `decisive` is the answer of the left side that settles the
matter; then the right side does not count, even where it is an error. -/
def Value.logical (left : Value) (decisive : Bool) (right : Outcome Value) : Outcome Value := do
  let l ← left.truth?
  if l = some decisive then return .boolean decisive
  let r ← (← right).truth?
  return match l, r with
    | some _, some b => .boolean b
    | none, some b => if b = decisive then .boolean decisive else .null
    | _, none => .null

namespace Expr

mutual

def eval (host : Host) : Expr → Scope → Outcome Value
  | constant v _, _ => .ok v
  | parameter p, scope => scope.lookup p
  | member target _ m, scope => do m.read (← evalTarget host target scope)
  | call target _ m args, scope => do
    let receiver ← evalTarget host target scope
    if target.isSome && receiver.isNull then throw .nullReference
    m.call host receiver (← evalAll host args scope)
  | arrayIndex target index _, scope => do
    let target ← eval host target scope
    let index ← eval host index scope
    target.itemAt index
  | new c args, scope => do c.call host .null (← evalAll host args scope)
  | unary op operand, scope => do op.apply (← eval host operand scope)
  | binary .and left right _, scope => do
    (← eval host left scope).logical false (eval host right scope)
  | binary .or left right _, scope => do
    (← eval host left scope).logical true (eval host right scope)
  | binary op left right _, scope => do
    let a ← eval host left scope
    let b ← eval host right scope
    if op.isComparison then op.comparison a b else op.arithmetic a b
  | conditional test whenTrue whenFalse, scope => do
    match ← eval host test scope with
    | .boolean true => eval host whenTrue scope
    | .boolean false => eval host whenFalse scope
    | .null => throw .noValue
    | v => throw (.cast v .boolean)
  | convert checked operand t, scope => do (← eval host operand scope).convert checked t
  | lambda _, _ => .error (.unsupported "a lambda as a value")
  | invoke (lambda l) args _, scope => do applyIn host l scope (← evalAll host args scope)
  | invoke _ _ _, _ => .error (.unsupported "invocation of a non-lambda")
  | newRecord r fields, scope => do
    match Record.ofValues r (← evalAll host fields scope) with
    | .ok record => return record.toValue
    | .error e => throw (.record e)
  | aggregate source op none t, scope => do
    let items ← (← eval host source scope).itemsOf
    op.run none items t
  | aggregate source op (some l) t, scope => do
    let items ← (← eval host source scope).itemsOf
    op.run (some ⟨fun item => applyIn host l scope [item], l.resultTy⟩) items t

/-- The value of what a member belongs to; null for the type itself. -/
def evalTarget (host : Host) : Option Expr → Scope → Outcome Value
  | none, _ => .ok .null
  | some e, scope => eval host e scope

def evalAll (host : Host) : List Expr → Scope → Outcome (List Value)
  | [], _ => .ok []
  | e :: es, scope => do
    let v ← eval host e scope
    let vs ← evalAll host es scope
    return v :: vs

def applyIn (host : Host) : Lambda → Scope → List Value → Outcome Value
  | ⟨params, body⟩, scope, args =>
    if params.length ≠ args.length then .error (.arityMismatch params.length args.length)
    else eval host body (scope.bind params args)

end

end Expr

namespace Lambda

/-- The value of a function for arguments of whatever type. -/
def apply (l : Lambda) (host : Host) (args : List Value) : Outcome Value :=
  Expr.applyIn host l [] args

def checkArgs : List Parameter → List Value → Outcome Unit
  | p :: ps, v :: vs =>
    if v.conformsTo p.ty then checkArgs ps vs else .error (.cast v p.ty)
  | _, _ => .ok ()

/-- The value of a function for arguments that conform to its parameters. -/
def evaluate (l : Lambda) (host : Host) (args : List Value) : Outcome Value := do
  checkArgs l.params args
  l.apply host args

end Lambda

namespace OrderingKey

def keysOf (keys : List OrderingKey) (host : Host) (p : Parameter) (item : Value) :
    Outcome (List Value) :=
  Expr.evalAll host (keys.map (·.selector)) [(p, item)]

/-- The order of two keys; null comes first, and keys without an order are equal. -/
def compareKeys : Value → Value → Ordering
  | .null, .null => .eq
  | .null, _ => .lt
  | _, .null => .gt
  | a, b => (a.compare? b).getD .eq

/-- The order of two lists of keys: that of the first keys that differ. -/
def compareAll : List OrderingKey → List Value → List Value → Ordering
  | k :: ks, a :: as, b :: bs =>
    let o := compareKeys a b
    (if k.ascending then o else o.swap).then (compareAll ks as bs)
  | _, _, _ => .eq

/-- Each item with its keys. -/
def withKeys (keys : List OrderingKey) (host : Host) (p : Parameter) :
    List Value → Outcome (List (List Value × Value))
  | [] => .ok []
  | v :: vs => do
    let key ← keysOf keys host p v
    let rest ← withKeys keys host p vs
    return (key, v) :: rest

/-- Add an item to items that are in order, the last one first: it goes past those that come after
it, and stops at the first one that does not. -/
def insert (keys : List OrderingKey) (x : List Value × Value) :
    List (List Value × Value) → List (List Value × Value)
  | [] => [x]
  | y :: ys => if compareAll keys x.1 y.1 = .lt then y :: insert keys x ys else x :: y :: ys

/-- The items of rows in the order of their keys; rows with equal keys stay as they are. -/
def arrange (keys : List OrderingKey) (rows : List (List Value × Value)) : List Value :=
  ((rows.foldl (fun sorted x => insert keys x sorted) []).map (·.2)).reverse

/-- The items in the order of their keys; items with equal keys stay as they are. -/
def sort (keys : List OrderingKey) (host : Host) (p : Parameter) (items : List Value) :
    Outcome (List Value) := do
  return arrange keys (← withKeys keys host p items)

end OrderingKey
end TypedExpr
