import TypedExpr.Value.Equality
import TypedExpr.Value.Text

/-!
# Records

A record holds one value for each property of its type, in the order of the properties, and each
value conforms to the type of its property. Properties are found by name in any case.
-/

namespace TypedExpr

/-- Why a record or its type could not be made or changed. -/
inductive RecordError where
  | duplicateProperty (name : String)
  | capacityExceeded (limit : Nat)
  | unknownProperty (name type : String)
  | typeMismatch (property expected found : String)
  | arityMismatch (expected found : Nat)
  deriving DecidableEq, Repr

def RecordError.name : RecordError → String
  | duplicateProperty _ => "DuplicateProperty"
  | capacityExceeded _ => "CapacityExceeded"
  | unknownProperty .. => "UnknownProperty"
  | typeMismatch .. => "TypeMismatch"
  | arityMismatch .. => "FieldArityMismatch"

def RecordError.message : RecordError → String
  | duplicateProperty name => "The property '" ++ name ++ "' is defined more than once"
  | capacityExceeded limit =>
    "The record type limit of " ++ toString limit ++ " has been reached"
  | unknownProperty name type => "No property '" ++ name ++ "' exists in type '" ++ type ++ "'"
  | typeMismatch property expected found =>
    "Property '" ++ property ++ "' expects a value of type '" ++ expected ++ "', found '" ++
      found ++ "'"
  | arityMismatch expected found =>
    "Expected " ++ toString expected ++ " field values, found " ++ toString found

/-- A record: its type and the values of its properties. -/
structure Record where
  type : RecordType
  fields : List Value

namespace Record

/-- The value must conform to the type of the property. -/
def checkField (p : Property) (v : Value) : Except RecordError Unit :=
  if v.conformsTo p.ty then .ok ()
  else .error (.typeMismatch p.name p.ty.toText v.typeOf.toText)

/-- The values must conform to the properties, one by one. -/
def checkFields : List Property → List Value → Except RecordError Unit
  | p :: ps, v :: vs => do
    checkField p v
    checkFields ps vs
  | _, _ => .ok ()

/-- The record in which every property has the value its type begins with. -/
def ofDefaults (type : RecordType) : Record :=
  ⟨type, type.properties.map fun p => Value.defaultOf p.ty⟩

/-- The record of these values, given in the order of the properties. -/
def ofValues (type : RecordType) (values : List Value) : Except RecordError Record := do
  if values.length ≠ type.properties.length then
    throw (.arityMismatch type.properties.length values.length)
  checkFields type.properties values
  return ⟨type, values⟩

def set (r : Record) (name : String) (v : Value) : Except RecordError Record :=
  match r.type.fieldIndex? name with
  | none => .error (.unknownProperty name r.type.name)
  | some i => do
    if let some p := r.type.properties[i]? then checkField p v
    return { r with fields := r.fields.set i v }

def get? (r : Record) (name : String) : Option Value :=
  (r.type.fieldIndex? name).bind (r.fields[·]?)

def toValue (r : Record) : Value := .record r.type r.fields

/-- The exclusive or of the hash codes of the fields. -/
def hashCode (r : Record) : HashCode := Value.hashOfFields r.fields

/-- The text of the record after the name of its type. -/
def describe (r : Record) : String := r.type.name ++ r.toValue.toText

end Record
end TypedExpr
