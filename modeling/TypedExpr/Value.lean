import TypedExpr.DateTime
import TypedExpr.Decimal
import TypedExpr.Guid
import TypedExpr.Ty.Conversion

/-!
# Values

What expressions evaluate to. A value carries its kind but not its static type: null belongs to
many types, and a sequence says nothing about the type of its elements.
-/

namespace TypedExpr

/-- The values of expressions. -/
inductive Value where
  | null
  | boolean (b : Bool)
  | char (c : Char)
  | string (s : String)
  | integer (k : IntKind) (n : k.Word)
  | single (x : Float32)
  | double (x : Float)
  | decimal (d : Decimal)
  | dateTime (t : DateTime)
  | timeSpan (s : TimeSpan)
  | guid (g : Guid)
  | enum (type : EnumType) (n : MemberNumber)
  /-- One value for each property of the type. -/
  | record (type : RecordType) (fields : List Value)
  | sequence (items : List Value)
  /-- An object of the host with the values of its members and, if it can be gone through, its
  items. The number tells two objects apart. -/
  | hosted (id : Nat) (type : ClassType) (members : List (String × Value))
      (items : Option (List Value))

namespace Value

instance : Inhabited Value := ⟨.null⟩

def int32 (n : Int) : Value := .integer .int32 (IntKind.int32.wrap n)

def int64 (n : Int) : Value := .integer .int64 (IntKind.int64.wrap n)

def isNull : Value → Bool
  | null => true
  | _ => false

def boolean? : Value → Option Bool
  | boolean b => some b
  | _ => none

def string? : Value → Option String
  | string s => some s
  | _ => none

/-- The type of a value that is given without one. -/
def typeOf : Value → Ty
  | null => .object
  | boolean _ => .boolean
  | char _ => .char
  | string _ => .string
  | integer k _ => .integer k
  | single _ => .single
  | double _ => .double
  | decimal _ => .decimal
  | dateTime _ => .dateTime
  | timeSpan _ => .timeSpan
  | guid _ => .guid
  | enum e _ => .enum e
  | record r _ => .record r
  | sequence _ => .sequence .object
  | hosted _ c _ _ => .cls c

/-- The value that a field of a type begins with: zero, false, the first date, or null. -/
def defaultOf : Ty → Value
  | .boolean => boolean false
  | .char => char '\x00'
  | .integer k => integer k (k.wrap 0)
  | .single => single 0
  | .double => double 0
  | .decimal => decimal Decimal.zero
  | .dateTime => dateTime DateTime.minValue
  | .timeSpan => timeSpan TimeSpan.zero
  | .guid => guid Guid.empty
  | .enum e => enum e (IntKind.int64.wrap 0)
  | _ => null

/-- The value can be stored where `t` is asked for, as far as the value itself shows. -/
def conformsTo (v : Value) : (t : Ty) → Bool
  | .object => true
  | .nullable inner => v.isNull || v.conformsTo inner
  | t =>
    match v, t with
    | null, t => !t.isValueType
    | record r _, .record r' => r = r'
    | sequence _, .sequence _ | sequence _, .array _ => true
    | hosted _ c _ _, .cls c' => c.derivesFrom c'
    | hosted _ _ _ items, .sequence _ => items.isSome
    | enum e _, .enum e' => e = e'
    | v, t => v.typeOf = t

def items? : Value → Option (List Value)
  | sequence items => some items
  | hosted _ _ _ items => items
  | _ => none

/-- An object of the host. Of two members whose names differ at most in case the later one is left
out. -/
def ofHost (id : Nat) (type : ClassType) (members : List (String × Value))
    (items : Option (List Value)) : Value :=
  hosted id type (CaseMap.ofList members).entries items

def member? (members : List (String × Value)) (name : String) : Option Value :=
  (CaseMap.ofList members).get? name

end Value
end TypedExpr
