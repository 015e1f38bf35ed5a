import TypedExpr.Text.Search

/-!
# JSON documents

A document keeps the order of its keys. Numbers written as integers of 64 bits are integers, all
others are doubles.
-/

namespace TypedExpr

/-- JSON documents. -/
inductive Json where
  | null
  | bool (b : Bool)
  | int (n : Int)
  | float (x : Float)
  | string (s : String)
  | array (items : List Json)
  | object (entries : List (String × Json))

namespace Json

instance : Inhabited Json := ⟨.null⟩

/-- Enter a value under a key: at the place of an earlier one, or at the end. -/
def put (key : String) (value : Json) : List (String × Json) → List (String × Json)
  | [] => [(key, value)]
  | (k, v) :: rest => if k = key then (key, value) :: rest else (k, v) :: put key value rest

mutual

/-- The document in which every key of an object stands once: at its first place, with its last
value. -/
def merged : Json → Json
  | array items => array (mergedItems items)
  | object entries => object (mergedEntries entries [])
  | j => j

def mergedItems : List Json → List Json
  | [] => []
  | j :: js => j.merged :: mergedItems js

def mergedEntries : List (String × Json) → List (String × Json) → List (String × Json)
  | [], done => done
  | (key, j) :: rest, done => mergedEntries rest (put key j.merged done)

end

def field? (key : String) : Json → Option Json
  | object entries => (entries.find? fun e => e.1 == key).map (·.2)
  | _ => none

def string? : Json → Option String
  | string s => some s
  | _ => none

def items? : Json → Option (List Json)
  | array items => some items
  | _ => none

end Json
end TypedExpr
