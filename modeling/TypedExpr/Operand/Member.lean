import TypedExpr.OperatorTypes
import TypedExpr.Overload
import TypedExpr.Diagnostic

/-!
# Members, calls and conversions of operands

What follows an operand: a property, a call, an index, an operation on its items. Without an
operand the member belongs to a type. A type called with one argument that fits no constructor is a
conversion. Positions are those of the names that errors are reported at.
-/

namespace TypedExpr.Operand

def property (t : Ty) (target : Option Operand) (name : String) (pos : Nat) :
    Except Diagnostic Operand :=
  match Catalog.property? t name target.isNone with
  | some m => .ok (plain (.member (target.map (·.expr)) t m))
  | none => .error ⟨.unknownMember name t.toText, pos⟩

/-- A method call. Only methods of predefined types with a result can be called. -/
def method (t : Ty) (target : Option Operand) (name : String) (args : List Operand) (pos : Nat) :
    Except Diagnostic Operand :=
  match Overload.resolveLayers Layer.methods args (Catalog.methods t name target.isNone) with
  | .notFound => .error ⟨.noApplicableMethod name t.toText, pos⟩
  | .ambiguous => .error ⟨.ambiguousMethod name t.toText, pos⟩
  | .found layer m args =>
    if !Catalog.isPredefined layer.owner then
      .error ⟨.methodsInaccessible layer.owner.toText, pos⟩
    else if m.result.isNone then .error ⟨.methodIsVoid name layer.owner.toText, pos⟩
    else .ok (plain (.call (target.map (·.expr)) layer.owner m (args.map (·.expr))))

/-- The type of the items that operations are called on. A string is no sequence here. -/
def itemTy? (t : Ty) : Option Ty := if t = .string then none else t.elementType?

/-- An operation on the items of `source`; `item` stands for each item in the argument. -/
def aggregate (source : Operand) (item : Parameter) (name : String) (args : List Operand)
    (pos : Nat) : Except Diagnostic Operand :=
  match AggregateOp.ofName? name with
  | none => .error ⟨.noApplicableAggregate name, pos⟩
  | some op =>
    match Overload.resolve () op.signatures args with
    | .found _ _ args =>
      let body := args.head?.map (·.expr)
      let selector := body.map fun e => (⟨[item], e⟩ : Lambda)
      .ok (plain (.aggregate source.expr op selector (op.resultTy item.ty (body.map Expr.ty))))
    | _ => .error ⟨.noApplicableAggregate name, pos⟩

def index (target : Operand) (args : List Operand) (pos : Nat) : Except Diagnostic Operand :=
  match target.ty with
  | .array element =>
    match args with
    | [i] =>
      match i.promote? .int32 true with
      | some i => .ok (plain (.arrayIndex target.expr i.expr element))
      | none => .error ⟨.indexNotInteger, pos⟩
    | _ => .error ⟨.severalArrayIndexes, pos⟩
  | t =>
    match Overload.resolveLayers Layer.methods args (Catalog.indexers t) with
    | .notFound => .error ⟨.noApplicableIndexer t.toText, pos⟩
    | .ambiguous => .error ⟨.ambiguousIndexer t.toText, pos⟩
    | .found layer m args =>
      .ok (plain (.call (some target.expr) layer.owner m (args.map (·.expr))))

/-- Numbers and members of enumerations convert to one another. -/
def isNumberLike (t : Ty) : Bool := t.isNumeric || t.isEnum

/-- An interface, whose values can be of any class. -/
def isInterface : Ty → Bool
  | .cls c => c.isInterface
  | _ => false

/-- The types differ in null only. -/
def differInNull (s t : Ty) : Bool :=
  (s.isNullable || t.isNullable) && s.nonNullable = t.nonNullable

/-- A conversion that is asked for. Between numbers it is checked. -/
def convert (o : Operand) (t : Ty) (pos : Nat) : Except Diagnostic Operand :=
  let s := o.ty
  let values := s.isValueType && t.isValueType
  if s = t then .ok o
  else if values && differInNull s t then .ok (plain (.convert false o.expr t))
  else if values && isNumberLike s && isNumberLike t then .ok (plain (.convert true o.expr t))
  else if s.isAssignableFrom t || t.isAssignableFrom s || isInterface s || isInterface t then
    .ok (plain (.convert false o.expr t))
  else .error ⟨.cannotConvert s.toText t.toText, pos⟩

def construct (t : Ty) (args : List Operand) (pos : Nat) : Except Diagnostic Operand :=
  match Overload.resolve () (Catalog.constructors t) args with
  | .found _ m args => .ok (plain (.new m (args.map (·.expr))))
  | .ambiguous => .error ⟨.ambiguousConstructor t.toText, pos⟩
  | .notFound =>
    match args with
    | [o] => o.convert t pos
    | _ => .error ⟨.noMatchingConstructor t.toText, pos⟩

def invoke (l : Lambda) (args : List Operand) (pos : Nat) : Except Diagnostic Operand :=
  let signature := Method.signature "Invoke" (l.params.map (·.ty))
  match Overload.resolve () [signature] args with
  | .found _ _ args => .ok (plain (.invoke (.lambda l) (args.map (·.expr)) l.resultTy))
  | _ => .error ⟨.lambdaArgumentsMismatch, pos⟩

end TypedExpr.Operand
