import TypedExpr.Decimal.Text
import TypedExpr.Value.Order

/-!
# Texts as numbers and enumeration members

A number literal has no type of its own until its place asks for one: its text is then read as a
value of that type.
-/

namespace TypedExpr.Value

def ofPredefinedNumber? (text : List Char) : Predefined → Option Value
  | .integer k => (k.ofText? text).map (integer k)
  | .single => (Read.float32? text).map single
  | .double => (Read.float? text).map double
  | .decimal => (Decimal.ofText? text).map decimal
  | _ => none

/-- Read a number of a type; for an enumeration, a number of the underlying type. One question mark
may stand around the type, unless it has been `stripped` before. -/
def numberOfType? (text : List Char) (stripped : Bool) : Ty → Option Value
  | .predefined p => ofPredefinedNumber? text p
  | .nullable inner => if stripped then none else numberOfType? text true inner
  | .enum ⟨id, name, underlying, members⟩ => do
    let raw ← numberOfType? text false underlying
    return enum ⟨id, name, underlying, members⟩ (← IntKind.int64.ofInt? (← raw.toInt?))
  | _ => none

/-- Read a number of a type with or without null, leaving out the blanks around it. -/
def ofNumber? (text : String) (t : Ty) : Option Value :=
  numberOfType? (Text.trimChars text.toList) false t

/-- The member of an enumeration with this name, in any case. -/
def ofMemberName? (name : String) (t : Ty) : Option Value :=
  match t.nonNullable with
  | .enum e => (e.member? name).map (enum e)
  | _ => none

end TypedExpr.Value
