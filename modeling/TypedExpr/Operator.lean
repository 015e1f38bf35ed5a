import TypedExpr.Text.Search

/-!
# Operators

The signs of the expression language and the operations on sequences.
-/

namespace TypedExpr

inductive UnaryOp where
  | negate
  | not
  deriving DecidableEq, Repr

inductive BinaryOp where
  | add
  | subtract
  | multiply
  | divide
  | modulo
  | equal
  | notEqual
  | less
  | lessEqual
  | greater
  | greaterEqual
  | and
  | or
  deriving DecidableEq, Repr

inductive AggregateOp where
  | filter
  | any
  | all
  | count
  | min
  | max
  | sum
  | average
  deriving DecidableEq, Repr

def UnaryOp.name : UnaryOp → String
  | negate => "Negate"
  | not => "Not"

namespace BinaryOp

def all : List BinaryOp :=
  [add, subtract, multiply, divide, modulo, equal, notEqual, less, lessEqual, greater,
    greaterEqual, and, or]

def symbol : BinaryOp → String
  | add => "+"
  | subtract => "-"
  | multiply => "*"
  | divide => "/"
  | modulo => "%"
  | equal => "=="
  | notEqual => "!="
  | less => "<"
  | lessEqual => "<="
  | greater => ">"
  | greaterEqual => ">="
  | and => "&&"
  | or => "||"

def ofSymbol? (s : String) : Option BinaryOp := all.find? fun op => op.symbol == s

def isComparison : BinaryOp → Bool
  | equal | notEqual | less | lessEqual | greater | greaterEqual => true
  | _ => false

end BinaryOp

namespace AggregateOp

def ops : List AggregateOp := [filter, any, all, count, min, max, sum, average]

def name : AggregateOp → String
  | filter => "Where"
  | any => "Any"
  | all => "All"
  | count => "Count"
  | min => "Min"
  | max => "Max"
  | sum => "Sum"
  | average => "Average"

/-- The operation of a name in any case. -/
def ofName? (name : String) : Option AggregateOp :=
  ops.find? fun op => Text.sameIgnoringCase op.name name

end AggregateOp
end TypedExpr
