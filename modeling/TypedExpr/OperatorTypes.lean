import TypedExpr.Catalog
import TypedExpr.Operator

/-!
# Types of operators

An operator takes the operands of one of its signatures, chosen as an overload would be. An
operator has signatures of its own and those of more general operators after them, layer by
layer.
-/

namespace TypedExpr

/-- Groups of operators that take the same operands. -/
inductive OperatorClass where
  | arithmetic
  | addition
  | subtraction
  | equality
  | relation
  | logic
  | negation
  | complement
  deriving DecidableEq, Repr

namespace OperatorClass

/-- Each type without and with null. -/
def withNull (types : List Ty) : List Ty := types.flatMap fun t => [t, .nullable t]

/-- One signature with so many operands of each type. -/
def uniform (arity : Nat) (types : List Ty) : List Method :=
  types.map fun t => Method.signature "F" (List.replicate arity t)

/-- Arithmetic on numbers. -/
def arithmeticSignatures : List Method :=
  uniform 2 (withNull [.int32, .uint32, .int64, .uint64, .single, .double, .decimal])

/-- Spans of time are added to dates and to one another. -/
def additionSignatures : List Method :=
  [Method.signature "F" [.dateTime, .timeSpan],
    Method.signature "F" [.nullable .dateTime, .nullable .timeSpan],
    Method.signature "F" [.timeSpan, .timeSpan],
    Method.signature "F" [.nullable .timeSpan, .nullable .timeSpan]]

/-- Dates are subtracted from one another. -/
def subtractionSignatures : List Method := uniform 2 (withNull [.dateTime])

/-- What is ordered besides numbers. -/
def relationSignatures : List Method :=
  uniform 2 (.string :: withNull [.char, .dateTime, .timeSpan])

/-- What is equal or not besides what is ordered. -/
def equalitySignatures : List Method := uniform 2 (withNull [.boolean, .guid])

def layers : OperatorClass → List (List Method)
  | arithmetic => [arithmeticSignatures]
  | addition => [additionSignatures, arithmeticSignatures]
  | subtraction => [subtractionSignatures, additionSignatures, arithmeticSignatures]
  | equality => [equalitySignatures, relationSignatures, arithmeticSignatures]
  | relation => [relationSignatures, arithmeticSignatures]
  | logic => [uniform 2 (withNull [.boolean])]
  | negation => [uniform 1 (withNull [.int32, .int64, .single, .double, .decimal])]
  | complement => [uniform 1 (withNull [.boolean])]

/-- The class of an operator on two operands. -/
def ofBinary : BinaryOp → OperatorClass
  | .and | .or => logic
  | .add => addition
  | .subtract => subtraction
  | .equal | .notEqual => equality
  | .less | .lessEqual | .greater | .greaterEqual => relation
  | .multiply | .divide | .modulo => arithmetic

end OperatorClass

namespace AggregateOp

/-- The operands of an operation on a sequence: a function of the item, or nothing. -/
def operands : AggregateOp → List (List Ty)
  | filter | all => [[.boolean]]
  | any | count => [[], [.boolean]]
  | min | max => [[.object]]
  | sum | average =>
    (OperatorClass.withNull [.int32, .int64, .single, .double, .decimal]).map ([·])

def signatures (op : AggregateOp) : List Method := op.operands.map (Method.signature op.name)

/-- The type of the average of results of a type: integers have a double for average. -/
def averageTy (t : Ty) : Ty :=
  let lift (u : Ty) : Ty := if t.isNullable then .nullable u else u
  match t.nonNullable with
  | .int32 | .int64 => lift .double
  | u => lift u

/-- The type of the outcome of an operation, given the types of the items and of the results of
the selector. -/
def resultTy (op : AggregateOp) (element : Ty) (selector : Option Ty) : Ty :=
  match op with
  | filter => .sequence element
  | any | all => .boolean
  | count => .int32
  | min | max | sum => selector.getD .object
  | average => (selector.map averageTy).getD .double

end AggregateOp

/-- Joining two values as texts, which `&` stands for, and `+` beside a text. -/
def concatMethod : Method :=
  Method.ofBuiltin "Concat" [.object, .object] .string true (.string .concat)

/-- Comparing two texts, which relational operators between texts stand for. -/
def compareMethod : Method :=
  Method.ofBuiltin "Compare" [.string, .string] .int32 true (.string .compare)

end TypedExpr
