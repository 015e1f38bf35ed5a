import TypedExpr.Expr

/-!
# Fresh parameters

A number above those of all parameters of an expression, bound or free, so that a new parameter
can be told from them.
-/

namespace TypedExpr

/-- A number above those of all the parameters. -/
def Parameter.bound (params : List Parameter) : Nat :=
  params.foldl (fun n p => max n (p.id + 1)) 0

namespace Expr

mutual

/-- A number above those of all parameters in an expression. -/
def bound : Expr → Nat
  | constant .. => 0
  | parameter p => p.id + 1
  | member target _ _ => optionBound target
  | call target _ _ args => max (optionBound target) (listBound args)
  | arrayIndex target index _ => max target.bound index.bound
  | new _ args => listBound args
  | unary _ operand | convert _ operand _ => operand.bound
  | binary _ left right _ => max left.bound right.bound
  | conditional test whenTrue whenFalse => max test.bound (max whenTrue.bound whenFalse.bound)
  | lambda l => lambdaBound l
  | invoke f args _ => max f.bound (listBound args)
  | newRecord _ fields => listBound fields
  | aggregate source _ selector _ => max source.bound (selectorBound selector)

def optionBound : Option Expr → Nat
  | none => 0
  | some e => e.bound

def listBound : List Expr → Nat
  | [] => 0
  | e :: es => max e.bound (listBound es)

def lambdaBound : Lambda → Nat
  | ⟨params, body⟩ => max (Parameter.bound params) body.bound

def selectorBound : Option Lambda → Nat
  | none => 0
  | some l => lambdaBound l

end

end Expr
end TypedExpr
