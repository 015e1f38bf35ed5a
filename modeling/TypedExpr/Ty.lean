import TypedExpr.Builtin
import TypedExpr.CaseMap
import TypedExpr.Integer

/-!
# Types

A type is predefined, declared by the host, made for a record shape, or built from other types.
Enumerations and classes of the host carry a number that tells two declarations of one name
apart; record types are numbered in the order in which they are made. A type holds all that its
declaration says, so that the answers below need no table of declarations.
-/

namespace TypedExpr

/-- The types known by name. `math` and `convert` have static members only. -/
inductive Predefined where
  | object
  | boolean
  | char
  | string
  | integer (k : IntKind)
  | single
  | double
  | decimal
  | dateTime
  | timeSpan
  | guid
  | math
  | convert
  deriving DecidableEq, Repr

mutual

/-- The types of expressions. -/
inductive Ty where
  | predefined (p : Predefined)
  /-- The values of a type, and null. -/
  | nullable (inner : Ty)
  | enum (e : EnumType)
  | record (r : RecordType)
  | cls (c : ClassType)
  /-- Anything whose elements can be gone through. -/
  | sequence (element : Ty)
  | array (element : Ty)
  /-- The functions from `params` to `result`. -/
  | lambda (params : List Ty) (result : Ty)

/-- An enumeration: names for numbers of an integral type. -/
structure EnumType where
  id : Nat
  name : String
  underlying : Ty
  members : List (String × MemberNumber)

structure Property where
  name : String
  ty : Ty

structure RecordType where
  id : Nat
  properties : List Property

/-- A parameter of a method. Nothing can be passed to one that is only for output. -/
structure Param where
  ty : Ty
  isOut : Bool

/-- A method, constructor or indexer; without a result it is void. -/
structure Method where
  name : String
  params : List Param
  result : Option Ty
  isStatic : Bool
  body : MethodBody

structure ClassType where
  id : Nat
  name : String
  base : Option ClassType
  interfaces : List ClassType
  isInterface : Bool
  element : Option Ty
  properties : List Property
  fields : List Property
  methods : List Method
  constructors : List Method
  indexers : List Method

end

namespace Ty

/-- The root of all types. -/
@[match_pattern] abbrev object : Ty := .predefined .object
@[match_pattern] abbrev boolean : Ty := .predefined .boolean
@[match_pattern] abbrev char : Ty := .predefined .char
@[match_pattern] abbrev string : Ty := .predefined .string
@[match_pattern] abbrev integer (k : IntKind) : Ty := .predefined (.integer k)
@[match_pattern] abbrev sbyte : Ty := .integer .sbyte
@[match_pattern] abbrev byte : Ty := .integer .byte
@[match_pattern] abbrev int16 : Ty := .integer .int16
@[match_pattern] abbrev uint16 : Ty := .integer .uint16
@[match_pattern] abbrev int32 : Ty := .integer .int32
@[match_pattern] abbrev uint32 : Ty := .integer .uint32
@[match_pattern] abbrev int64 : Ty := .integer .int64
@[match_pattern] abbrev uint64 : Ty := .integer .uint64
@[match_pattern] abbrev single : Ty := .predefined .single
@[match_pattern] abbrev double : Ty := .predefined .double
@[match_pattern] abbrev decimal : Ty := .predefined .decimal
@[match_pattern] abbrev dateTime : Ty := .predefined .dateTime
@[match_pattern] abbrev timeSpan : Ty := .predefined .timeSpan
@[match_pattern] abbrev guid : Ty := .predefined .guid
@[match_pattern] abbrev math : Ty := .predefined .math
@[match_pattern] abbrev convert : Ty := .predefined .convert

instance : Inhabited Ty := ⟨.object⟩

def isNullable : Ty → Bool
  | nullable _ => true
  | _ => false

/-- The type without its null. -/
def nonNullable : Ty → Ty
  | nullable inner => inner
  | t => t

/-- The values are not references: null is none of them, or the type is nullable. -/
def isValueType : Ty → Bool
  | object | string | math | convert => false
  | predefined _ | nullable _ | enum _ => true
  | record _ | cls _ | sequence _ | array _ | lambda .. => false

/-- An enumeration, perhaps with null. -/
def isEnum (t : Ty) : Bool :=
  match t.nonNullable with
  | enum _ => true
  | _ => false

def isArray : Ty → Bool
  | array _ => true
  | _ => false

end Ty

namespace EnumType

/-- The number of a member, whatever the case of its name. -/
def member? (e : EnumType) (name : String) : Option MemberNumber :=
  (e.members.find? fun m => Text.sameIgnoringCase m.1 name).map (·.2)

def nameOf? (e : EnumType) (n : MemberNumber) : Option String :=
  (e.members.find? fun m => m.2 == n).map (·.1)

end EnumType

namespace RecordType

/-- Record types are named by their number. -/
def name (r : RecordType) : String := "DynamicClass" ++ toString r.id

/-- The place of a property, whatever the case of its name. -/
def fieldIndex? (r : RecordType) (name : String) : Option Nat :=
  (CaseMap.ofList (r.properties.map fun p => (p.name, p))).position? name

def property? (r : RecordType) (name : String) : Option Property :=
  (r.fieldIndex? name).bind (r.properties[·]?)

end RecordType

namespace Method

def ofBuiltin (name : String) (params : List Ty) (result : Ty) (isStatic : Bool) (b : Builtin) :
    Method :=
  ⟨name, params.map (⟨·, false⟩), some result, isStatic, .builtin b⟩

def signature (name : String) (params : List Ty) : Method :=
  ⟨name, params.map (⟨·, false⟩), none, true, .signature⟩

def paramTypes (m : Method) : List Ty := m.params.map (·.ty)

end Method

namespace ClassType

/-- A class with members of distinct names: of two names that differ at most in case the later
one is left out, and a field gives way to a property. -/
def withDistinctMembers (c : ClassType) : ClassType :=
  let properties := CaseMap.ofList (c.properties.map fun p => (p.name, p))
  let fields := CaseMap.ofList (c.fields.map fun p => (p.name, p))
  { c with
    properties := properties.values
    fields := (fields.entries.filter fun e => !properties.contains e.1).map (·.2) }

mutual

/-- The element type of an enumerable class, its own or the first that it inherits. -/
def elementType? : ClassType → Option Ty
  | ⟨_, _, base, interfaces, _, element, _, _, _, _, _⟩ =>
    match element with
    | some t => some t
    | none => (baseElement? base).or (firstElement? interfaces)

def baseElement? : Option ClassType → Option Ty
  | none => none
  | some c => c.elementType?

def firstElement? : List ClassType → Option Ty
  | [] => none
  | c :: cs => c.elementType?.or (firstElement? cs)

end

end ClassType

/-- The type of the elements of a type that can be gone through. -/
def Ty.elementType? : Ty → Option Ty
  | .sequence e | .array e => some e
  | .cls c => c.elementType?
  | _ => none

end TypedExpr
