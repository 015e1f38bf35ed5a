import TypedExpr.Record

/-!
# The record type cache

One record type for each shape: for each list of names and types in order. Types are numbered from
one in the order in which they are made, and stay. A limit can bound their number; shapes made
before it is reached go on to be found.
-/

namespace TypedExpr

/-- The record types made so far, the first one first. -/
structure RecordCache where
  types : List RecordType
  limit : Option Nat

namespace RecordCache

def empty (limit : Option Nat) : RecordCache := ⟨[], limit⟩

def size (c : RecordCache) : Nat := c.types.length

/-- The type of a shape, if it has been made. -/
def get? (c : RecordCache) (shape : List Property) : Option RecordType :=
  c.types.find? fun r => r.properties = shape

/-- The first name that an earlier one equals in any case. -/
def duplicateName? (shape : List Property) : Option String :=
  go CaseMap.empty shape
where
  go (seen : CaseMap Unit) : List Property → Option String
    | [] => none
    | p :: ps =>
      match seen.insert? p.name () with
      | none => some p.name
      | some seen => go seen ps

/-- The limit leaves room for one more type. -/
def hasRoom (c : RecordCache) : Bool :=
  match c.limit with
  | none => true
  | some limit => c.size < limit

/-- The type of a shape, made if there is none yet, and the cache after that. -/
def getOrCreate (c : RecordCache) (shape : List Property) :
    Except RecordError (RecordType × RecordCache) :=
  match duplicateName? shape with
  | some name => .error (.duplicateProperty name)
  | none =>
    match c.get? shape with
    | some r => .ok (r, c)
    | none =>
      if c.hasRoom then
        let r : RecordType := ⟨c.size + 1, shape⟩
        .ok (r, { c with types := c.types ++ [r] })
      else .error (.capacityExceeded (c.limit.getD 0))

end RecordCache
end TypedExpr
