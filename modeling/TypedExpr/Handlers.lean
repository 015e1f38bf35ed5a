import TypedExpr.Json.Materialize
import TypedExpr.Json.OfValue

/-!
# Handlers

Functions of the host that documents can call by name. A request is an object with the function
`CallMethod`, the name of a method and an array of arguments, which may be missing. It is checked
part by part, and the first fault is the answer; arguments are read only for a known method.
-/

namespace TypedExpr

/-- Why a request has no answer. -/
inductive DispatchError where
  | malformed (fault : String)
  | unknownFunction (name : String)
  | unknownMethod (name : String)
  | duplicateHandler (name : String)
  | argument (method : String) (index : Nat) (cause : MaterializeError)
  | handler (method message : String)
  deriving DecidableEq, Repr

def DispatchError.name : DispatchError → String
  | malformed _ => "Malformed"
  | unknownFunction _ => "UnknownFunction"
  | unknownMethod _ => "UnknownMethod"
  | duplicateHandler _ => "DuplicateHandler"
  | argument .. => "Argument"
  | handler .. => "Handler"

def DispatchError.message : DispatchError → String
  | malformed fault => "Malformed request: " ++ fault
  | unknownFunction name => "Unknown function '" ++ name ++ "'"
  | unknownMethod name => "No handler is registered for method '" ++ name ++ "'"
  | duplicateHandler name => "A handler is already registered for method '" ++ name ++ "'"
  | argument method index cause =>
    "Argument " ++ toString index ++ " of '" ++ method ++ "': " ++ cause.message
  | handler method message => "Method '" ++ method ++ "' failed: " ++ message

/-- A function of the host over the values of a request. -/
abbrev Handler := List Value → Except String Value

/-- Handlers under exact names, in the order in which they were registered. -/
structure Handlers where
  entries : List (String × Handler)

structure Request where
  method : String
  args : List Json

namespace Request

/-- The only function of requests. -/
def callMethod : String := "CallMethod"

def requiredText (request : Json) (name : String) : Except DispatchError String :=
  match (request.field? name).bind Json.string? with
  | some s => .ok s
  | none => .error (.malformed ("missing string field '" ++ name ++ "'"))

/-- The arguments of a request; null is none. -/
def argsOf (request : Json) : Except DispatchError (List Json) :=
  match request.field? "Args" with
  | some (.array args) => .ok args
  | some .null | none => .ok []
  | some _ => .error (.malformed "'Args' is not an array")

def ofJson (request : Json) : Except DispatchError Request := do
  let .object _ := request | throw (.malformed "the request is not an object")
  let function ← requiredText request "Function"
  if function ≠ callMethod then throw (.unknownFunction function)
  let method ← requiredText request "Method"
  return ⟨method, ← argsOf request⟩

/-- The values of the arguments from the index `i` on, and the record types after them. -/
def values (infer : Bool) (method : String) (cache : RecordCache) :
    (i : Nat) → List Json → Except DispatchError (List Value) × RecordCache
  | _, [] => (.ok [], cache)
  | i, j :: js =>
    match (j.materialize infer).runWith cache with
    | (.error e, cache) => (.error (.argument method i e), cache)
    | (.ok v, cache) =>
      let (rest, cache) := values infer method cache (i + 1) js
      (rest.map (v :: ·), cache)

end Request

namespace Handlers

def empty : Handlers := ⟨[]⟩

def names (hs : Handlers) : List String := hs.entries.map (·.1)

def get? (hs : Handlers) (name : String) : Option Handler :=
  (hs.entries.find? fun e => e.1 == name).map (·.2)

/-- Register a handler under a name that is still free. -/
def register (hs : Handlers) (name : String) (h : Handler) : Except DispatchError Handlers :=
  match hs.get? name with
  | some _ => .error (.duplicateHandler name)
  | none => .ok ⟨hs.entries ++ [(name, h)]⟩

def require (hs : Handlers) (method : String) : Except DispatchError Handler :=
  match hs.get? method with
  | some h => .ok h
  | none => .error (.unknownMethod method)

def answer (h : Handler) (method : String) (args : List Value) : Except DispatchError Json :=
  match h args with
  | .ok v => .ok (Json.ofValue v)
  | .error message => .error (.handler method message)

/-- Answer a request; its arguments can make record types. -/
def dispatch (hs : Handlers) (infer : Bool) (request : Json) (cache : RecordCache) :
    Except DispatchError Json × RecordCache :=
  let call := do
    let r ← Request.ofJson request
    return (r, ← hs.require r.method)
  match call with
  | .error e => (.error e, cache)
  | .ok (r, h) =>
    let (args, cache) := Request.values infer r.method cache 0 r.args
    (args.bind (answer h r.method), cache)

end Handlers
end TypedExpr
