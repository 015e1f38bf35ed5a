import TypedExpr.Catalog
import TypedExpr.Eval.NumberMembers
import TypedExpr.Eval.TextMembers
import TypedExpr.Eval.TimeMembers

/-!
# Reading properties and calling methods

Members of predefined types are computed here; those of host types come from the object itself
and from the functions of the host.
-/

namespace TypedExpr

/-- The functions of the host by number: from the receiver, which is null for constructors and
methods without one, and the arguments to a result or a failure in words. -/
abbrev Host := Nat → Value → List Value → Except String Value

/-- Read a computed property. Whether there is a value can be asked of null. -/
def Getter.get (g : Getter) (receiver : Value) : Outcome Value :=
  match g with
  | hasValue => .ok (.boolean !receiver.isNull)
  | nullableValue => if receiver.isNull then .error .noValue else .ok receiver
  | g =>
    if receiver.isNull then .error .nullReference
    else match g with
      | stringLength => do return .int32 (← receiver.asText).length
      | dateTime p => do return p.get (← receiver.asDateTime)
      | timeSpan p => do return p.get (← receiver.asTimeSpan)
      | _ => do
        let items ← Outcome.ofOption (receiver.unexpected "Array") receiver.items?
        return .int32 items.length

/-- Call a method of every value. -/
def ObjectMethod.call (m : ObjectMethod) (receiver : Value) (args : List Value) : Outcome Value :=
  match m with
  | toText => .ok (.string receiver.toText)
  | equals => do return .boolean (receiver.same (← argument args 0))
  | hashCode => .ok (.int32 receiver.hashCode.toNat)

/-- Call a predefined method whose declared result type is `result`. -/
def Builtin.call (b : Builtin) (result : Ty) (receiver : Value) (args : List Value) :
    Outcome Value :=
  match b with
  | object m => m.call receiver args
  | string m => m.call receiver args
  | char m => m.call args
  | math m => m.call args
  | convert m => m.call args
  | dateTime m => m.call receiver args
  | timeSpan m => m.call receiver args
  | newGuid => do Value.read (← textArgument args 0) .guid
  | parse => do Value.read (← textArgument args 0) result

def Member.read (m : Member) (receiver : Value) : Outcome Value :=
  match m.access with
  | .constant v => .ok v
  | .computed g => g.get receiver
  | .field i =>
    match receiver with
    | .null => .error .nullReference
    | .record _ fields => Outcome.ofOption (.missingMember m.name) fields[i]?
    | v => .error (.missingMember (m.name ++ " on " ++ v.typeOf.toText))
  | .hosted =>
    match receiver with
    | .null => .error .nullReference
    | .hosted _ _ members _ =>
      Outcome.ofOption (.missingMember m.name) (Value.member? members m.name)
    | v => .error (.missingMember (m.name ++ " on " ++ v.typeOf.toText))

def Method.call (m : Method) (host : Host) (receiver : Value) (args : List Value) :
    Outcome Value :=
  match m.body with
  | .builtin b => b.call (m.result.getD .object) receiver args
  | .host id =>
    match host id receiver args with
    | .ok v => .ok v
    | .error message => .error (.host m.name message)
  | .signature => .error (.unsupported m.name)

end TypedExpr
