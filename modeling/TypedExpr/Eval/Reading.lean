import TypedExpr.DateTime.Text
import TypedExpr.EvalError
import TypedExpr.Literal

/-!
# Reading values from texts

The text of a value of a known type. Blanks around it do not matter, except to a character, which
is exactly one.
-/

namespace TypedExpr.Value

def ofBooleanName? (text : String) : Option Value :=
  if Text.sameIgnoringCase text "true" then some (boolean true)
  else if Text.sameIgnoringCase text "false" then some (boolean false)
  else none

/-- The value of type `t` that a text shows. -/
def ofText? (text : String) (t : Ty) : Option Value :=
  let trimmed := Text.trimChars text.toList
  match t with
  | .boolean => ofBooleanName? (String.ofList trimmed)
  | .char =>
    match text.toList with
    | [c] => some (char c)
    | _ => none
  | .dateTime => (DateTime.ofText? trimmed).map dateTime
  | .timeSpan => (TimeSpan.ofText? trimmed).map timeSpan
  | .guid => (Guid.ofText? trimmed).map guid
  | t => ofNumber? (String.ofList trimmed) t

/-- The value that a text shows, or an error that quotes the text. -/
def read (text : String) (t : Ty) : Outcome Value :=
  Outcome.ofOption (.invalidFormat text) (ofText? text t)

end TypedExpr.Value
