import TypedExpr.DateTime.Text
import TypedExpr.Value

/-!
# Texts of values

Null is written as nothing, numbers without an exponent, records as `\x7bname=value, ...\x7d` and
sequences as `[value, ...]`. An object of the host shows the name of its class.
-/

namespace TypedExpr.Value

mutual

def toText : Value → String
  | null => ""
  | boolean b => if b then "True" else "False"
  | char c => String.singleton c
  | string s => s
  | integer _ n => toString n.val
  | single x => Binary.display (Binary.widen x)
  | double x => Binary.display x
  | decimal d => d.toText
  | dateTime t => t.toText
  | timeSpan s => s.toText
  | guid g => g.toText
  | enum e n => (e.nameOf? n).getD (toString n.val)
  | record r fields => "\x7b" ++ Text.joinWith ", " (fieldTexts r.properties fields) ++ "\x7d"
  | sequence items => "[" ++ Text.joinWith ", " (itemTexts items) ++ "]"
  | hosted _ c _ _ => c.name

def fieldTexts : List Property → List Value → List String
  | p :: ps, v :: vs => (p.name ++ "=" ++ v.toText) :: fieldTexts ps vs
  | _, _ => []

def itemTexts : List Value → List String
  | [] => []
  | v :: vs => v.toText :: itemTexts vs

end

end TypedExpr.Value
