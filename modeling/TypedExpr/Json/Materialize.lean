import TypedExpr.Json.Leaf
import TypedExpr.RecordCache

/-!
# Documents as values

An object becomes a record with one property for each key, in the order of the keys; its type is
made in the cache of record types if it is new. A property that is an object or an array has a
type that does not depend on what is inside. Types that were made before an error stay made.
-/

namespace TypedExpr

/-- Why a document is not a value. -/
inductive MaterializeError where
  | notAnObject (found : String)
  | record (cause : RecordError)
  deriving DecidableEq, Repr

def MaterializeError.name : MaterializeError → String
  | notAnObject _ => "NotAnObject"
  | record cause => cause.name

def MaterializeError.message : MaterializeError → String
  | notAnObject found => "Expected a JSON object, found " ++ found
  | record cause => cause.message

/-- What makes values and, on the way, record types. -/
abbrev Materializer (α : Type) := EStateM MaterializeError RecordCache α

namespace Materializer

def runWith {α : Type} (m : Materializer α) (cache : RecordCache) :
    Except MaterializeError α × RecordCache :=
  match m cache with
  | .ok a cache => (.ok a, cache)
  | .error e cache => (.error e, cache)

def recordType (shape : List Property) : Materializer RecordType := fun cache =>
  match cache.getOrCreate shape with
  | .ok (r, cache) => .ok r cache
  | .error e => .error (.record e) cache

def record (fields : List (Property × Value)) : Materializer Record := do
  let type ← recordType (fields.map (·.1))
  match Record.ofValues type (fields.map (·.2)) with
  | .ok r => return r
  | .error e => throw (.record e)

end Materializer

namespace Json

def isLeaf : Json → Bool
  | array _ | object _ => false
  | _ => true

def kindName : Json → String
  | null => "null"
  | bool _ => "a boolean"
  | int _ | float _ => "a number"
  | string _ => "a string"
  | array _ => "an array"
  | object _ => "an object"

mutual

/-- The type and the value of a document. The leaves in arrays are judged by their texts only if
`infer` is set. -/
def typed (infer : Bool) : Json → Materializer (Ty × Value)
  | object entries => do
    let record ← Materializer.record (← typedEntries infer entries)
    return (.object, record.toValue)
  | array items => do return (.sequence .object, .sequence (← elements infer items))
  | leaf => return leaf.inferred

def elements (infer : Bool) : List Json → Materializer (List Value)
  | [] => return []
  | j :: js => do
    let v ← if j.isLeaf && !infer then pure j.decoded else (·.2) <$> typed infer j
    let vs ← elements infer js
    return v :: vs

/-- The properties and values of the entries of an object. -/
def typedEntries (infer : Bool) : List (String × Json) → Materializer (List (Property × Value))
  | [] => return []
  | (name, j) :: rest => do
    let (ty, v) ← typed infer j
    let fields ← typedEntries infer rest
    return (⟨name, ty⟩, v) :: fields

end

def materialize (infer : Bool) (j : Json) : Materializer Value := (·.2) <$> j.typed infer

def materializeRecord (infer : Bool) : Json → Materializer Record
  | object entries => do Materializer.record (← typedEntries infer entries)
  | j => throw (.notAnObject j.kindName)

end Json
end TypedExpr
