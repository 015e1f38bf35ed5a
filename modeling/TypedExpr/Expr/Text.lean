import TypedExpr.Expr
import TypedExpr.Value.Text

/-!
# Texts of expressions

A form for reports: operators stand between parentheses, conversions are spelled out, and the
unnamed parameter is `it`. It is not meant to be read back.
-/

namespace TypedExpr

def Parameter.toText (p : Parameter) : String := if p.name.isEmpty then "it" else p.name

/-- The text of a constant: strings and characters in quotes, and `null`. -/
def Value.toConstantText : Value → String
  | .null => "null"
  | .string s => "\"" ++ s ++ "\""
  | .char c => "'" ++ String.singleton c ++ "'"
  | v => v.toText

namespace Expr

/-- The parameters of a function before its arrow: a single one stands alone. -/
def paramsText : List Parameter → String
  | [p] => p.toText
  | ps => "(" ++ Text.joinWith ", " (ps.map Parameter.toText) ++ ")"

mutual

def toText : Expr → String
  | constant v _ => v.toConstantText
  | parameter p => p.toText
  | member target owner m => targetText target owner ++ "." ++ m.name
  | call target owner m args =>
    targetText target owner ++ "." ++ m.name ++ "(" ++ Text.joinWith ", " (texts args) ++ ")"
  | arrayIndex target index _ => target.toText ++ "[" ++ index.toText ++ "]"
  | new c args => "new " ++ c.name ++ "(" ++ Text.joinWith ", " (texts args) ++ ")"
  | unary .negate operand => "-" ++ operand.toText
  | unary .not operand => "Not(" ++ operand.toText ++ ")"
  | binary op left right _ =>
    "(" ++ left.toText ++ " " ++ op.symbol ++ " " ++ right.toText ++ ")"
  | conditional test whenTrue whenFalse =>
    "IIF(" ++ test.toText ++ ", " ++ whenTrue.toText ++ ", " ++ whenFalse.toText ++ ")"
  | convert checked operand t =>
    (if checked then "ConvertChecked(" else "Convert(") ++ operand.toText ++ ", " ++ t.toText ++ ")"
  | lambda l => lambdaText l
  | invoke f args _ => "Invoke(" ++ Text.joinWith ", " (f.toText :: texts args) ++ ")"
  | newRecord r fields =>
    "new " ++ r.name ++ "(" ++ Text.joinWith ", " (fieldTexts r.properties fields) ++ ")"
  | aggregate source op selector _ =>
    source.toText ++ "." ++ op.name ++ "(" ++ selectorText selector ++ ")"

def targetText : (target : Option Expr) → (owner : Ty) → String
  | none, owner => owner.toText
  | some e, _ => e.toText

def lambdaText : Lambda → String
  | ⟨params, body⟩ => paramsText params ++ " => " ++ body.toText

def selectorText : Option Lambda → String
  | none => ""
  | some l => lambdaText l

def texts : List Expr → List String
  | [] => []
  | e :: es => e.toText :: texts es

def fieldTexts : List Property → List Expr → List String
  | p :: ps, e :: es => (p.name ++ " = " ++ e.toText) :: fieldTexts ps es
  | _, _ => []

end

end Expr

def Lambda.toText (l : Lambda) : String := Expr.lambdaText l

end TypedExpr
