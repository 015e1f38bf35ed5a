import TypedExpr.Expr
import TypedExpr.Literal

/-!
# Operands and their promotion

While an expression is put together, each part remembers whether it was written as a literal. The
text of a literal is read again where its place asks for another type, so that `5` can become a
byte and `"Red"` the member of an enumeration. Everything else is converted.
-/

namespace TypedExpr

/-- How a part of an expression was written. -/
inductive LiteralMark where
  | none
  /-- A literal with this text. -/
  | text (s : String)
  | null
  deriving DecidableEq, Repr

/-- A part of an expression that is being put together. -/
structure Operand where
  expr : Expr
  mark : LiteralMark

namespace Operand

def plain (e : Expr) : Operand := ⟨e, .none⟩

def literal (v : Value) (text : String) : Operand := ⟨.constant v v.typeOf, .text text⟩

def nullLiteral : Operand := ⟨.constant .null .object, .null⟩

def ty (o : Operand) : Ty := o.expr.ty

def isNull (o : Operand) : Bool := o.mark == .null

def text? (o : Operand) : Option String :=
  match o.mark with
  | .text s => some s
  | _ => none

/-- Read the text of a literal of type `source` again for another type. Integers are read as any
numbers, fractions as decimals, strings as members of enumerations. -/
def reread? (text : String) (source target : Ty) : Option Value :=
  match source with
  | .int32 | .uint32 | .int64 | .uint64 => Value.ofNumber? text target
  | .double => if target = .decimal then Value.ofNumber? text target else none
  | .string => Value.ofMemberName? text target
  | _ => none

/-- The constant that a literal becomes in another type. -/
def asLiteralOf? (o : Operand) (target : Ty) : Option Value :=
  match o.mark with
  | .none => none
  | .text s => reread? s o.ty target.nonNullable
  | .null => if !target.isValueType || target.isNullable then some .null else none

/-- Give a part another type, if it goes there by itself. A type of references accepts the part
as it is, unless its type has to be `exact`. -/
def promote? (o : Operand) (target : Ty) (exact : Bool) : Option Operand :=
  if o.ty = target then some o
  else
    match o.asLiteralOf? target with
    | some v => some (plain (.constant v target))
    | none =>
      -- a value is converted, a reference is passed as it is
      if o.ty.convertsTo target then
        if target.isValueType || exact then some (plain (.convert false o.expr target))
        else some o
      else none

end Operand
end TypedExpr
