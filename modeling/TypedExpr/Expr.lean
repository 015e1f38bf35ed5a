import TypedExpr.Catalog
import TypedExpr.Operator

/-!
# Expressions

An expression is a tree in which every node has a static type. The type is stored where it does
not follow from the parts. A parameter is known by its number; its name is only for readers, and
the unnamed one is written `it`.
-/

namespace TypedExpr

structure Parameter where
  id : Nat
  name : String
  ty : Ty

mutual

/-- Typed expressions. -/
inductive Expr where
  | constant (v : Value) (ty : Ty)
  | parameter (p : Parameter)
  /-- A property or field, of a target or of the type `owner` itself. -/
  | member (target : Option Expr) (owner : Ty) (m : Member)
  /-- A method or indexer, of a target or of the type `owner` itself. -/
  | call (target : Option Expr) (owner : Ty) (m : Method) (args : List Expr)
  | arrayIndex (target index : Expr) (ty : Ty)
  | new (constructor : Method) (args : List Expr)
  | unary (op : UnaryOp) (operand : Expr)
  | binary (op : BinaryOp) (left right : Expr) (ty : Ty)
  | conditional (test whenTrue whenFalse : Expr)
  /-- A conversion; a checked one fails where a number would change. -/
  | convert (checked : Bool) (operand : Expr) (ty : Ty)
  | lambda (l : Lambda)
  | invoke (function : Expr) (args : List Expr) (ty : Ty)
  /-- A record from the values of its properties in order. -/
  | newRecord (type : RecordType) (fields : List Expr)
  /-- An operation on the items of `source`. -/
  | aggregate (source : Expr) (op : AggregateOp) (selector : Option Lambda) (ty : Ty)

/-- A function: parameters and a body. -/
structure Lambda where
  params : List Parameter
  body : Expr

end

namespace Expr

mutual

/-- The static type. A void method counts as an `Object`. -/
def ty : Expr → Ty
  | constant _ t | arrayIndex _ _ t | binary _ _ _ t | convert _ _ t | invoke _ _ t
  | aggregate _ _ _ t => t
  | parameter p => p.ty
  | member _ _ m => m.ty
  | call _ _ m _ | new m _ => m.result.getD .object
  | unary _ operand => operand.ty
  | conditional _ whenTrue _ => whenTrue.ty
  | lambda l => lambdaTy l
  | newRecord r _ => .record r

def lambdaTy : Lambda → Ty
  | ⟨params, body⟩ => .lambda (params.map (·.ty)) body.ty

end

def constant? : Expr → Option Value
  | constant v _ => some v
  | _ => none

/-- The name of a member, which a projection takes over. -/
def memberName? : Expr → Option String
  | member _ _ m => some m.name
  | _ => none

end Expr

def Lambda.ty (l : Lambda) : Ty := Expr.lambdaTy l

def Lambda.resultTy (l : Lambda) : Ty := l.body.ty

/-- One key of an ordering. -/
structure OrderingKey where
  selector : Expr
  ascending : Bool

end TypedExpr
