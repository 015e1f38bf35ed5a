import TypedExpr.DateTime.Text
import TypedExpr.Json
import TypedExpr.Value.Order

/-!
# Values as documents

Records and objects of the host become objects, sequences arrays. What has no form of its own is
written as text, and so are infinities and NaN. A decimal is written as a double.
-/

namespace TypedExpr.Json

/-- A double as a number, or as its name. -/
def ofFloat (x : Float) : Json :=
  if (Binary.ofFloat x).isFinite then float x else string (Binary.display x)

mutual

def ofValue : Value → Json
  | .null => null
  | .boolean b => bool b
  | .char c => string (String.singleton c)
  | .string s => string s
  | .integer _ n => int n.val
  | .single x => ofFloat (Binary.widen x)
  | .double x => ofFloat x
  | .decimal d => ofFloat d.toFloat
  | .dateTime t => string (t.format DateTime.Format.iso)
  | .timeSpan s => string s.toText
  | .guid g => string g.toText
  | .enum e n =>
    match e.nameOf? n with
    | some name => string name
    | none => int n.val
  | .record r fields => object (ofFields r.properties fields)
  | .sequence items => array (ofItems items)
  | .hosted _ _ _ (some items) => array (ofItems items)
  | .hosted _ _ members none => object (ofMembers members [])

def ofFields : List Property → List Value → List (String × Json)
  | p :: ps, v :: vs => (p.name, ofValue v) :: ofFields ps vs
  | _, _ => []

def ofItems : List Value → List Json
  | [] => []
  | v :: vs => ofValue v :: ofItems vs

/-- The entries of an object of the host after those that have been entered. -/
def ofMembers : List (String × Value) → List (String × Json) → List (String × Json)
  | [], done => done
  | (name, v) :: rest, done => ofMembers rest (put name (ofValue v) done)

end

end TypedExpr.Json
