import TypedExpr.Json.Reader
import TypedExpr.Source

/-!
# Options

What an engine can be told: how deep expressions may be nested, how many record types may be made,
and how the leaves in arrays are read. Options are written as an object of which any key may be
missing and no other key is known, or as the array of their values in this order.
-/

namespace TypedExpr

/-- The options of an engine. -/
structure Options where
  maxNestingDepth : Nat
  /-- Without a number there is no limit. -/
  maxRecordTypes : Option Nat
  /-- The leaves in arrays are judged by their texts. -/
  coerceArrayElements : Bool
  deriving DecidableEq, Repr

namespace Options

/-- The options of an engine that is told nothing. -/
def default : Options := ⟨Source.defaultMaxDepth, none, true⟩

inductive Key where
  | maxNestingDepth
  | maxRecordTypes
  | coerceArrayElements
  deriving DecidableEq, Repr

namespace Key

/-- All keys, in the order of the array. -/
def all : List Key := [.maxNestingDepth, .maxRecordTypes, .coerceArrayElements]

def name : Key → String
  | maxNestingDepth => "maxNestingDepth"
  | maxRecordTypes => "maxRecordTypes"
  | coerceArrayElements => "coerceArrayElements"

def ofName? (name : String) : Option Key := all.find? fun k => k.name == name

end Key

/-- An integer from zero below a limit. -/
def natBelow? (limit : Nat) : Json → Option Nat
  | .int n => if 0 ≤ n ∧ n < limit then some n.toNat else none
  | _ => none

def set? (o : Options) (key : Key) (j : Json) : Option Options :=
  match key, j with
  | .maxNestingDepth, j => (natBelow? (2 ^ 32) j).map fun n => { o with maxNestingDepth := n }
  | .maxRecordTypes, .null => some { o with maxRecordTypes := none }
  | .maxRecordTypes, j => (natBelow? (2 ^ 64) j).map fun n => { o with maxRecordTypes := some n }
  | .coerceArrayElements, .bool b => some { o with coerceArrayElements := b }
  | .coerceArrayElements, _ => none

/-- Read entries under keys that may each occur once. -/
def setEntries? (o : Options) : (free : List Key) → List (String × Json) → Option Options
  | _, [] => some o
  | free, (name, j) :: rest => do
    let key ← Key.ofName? name
    if key ∉ free then none
    else setEntries? (← o.set? key j) (free.erase key) rest

def setItems? (o : Options) : List Key → List Json → Option Options
  | _, [] => some o
  | [], _ :: _ => none
  | key :: keys, j :: js => do setItems? (← o.set? key j) keys js

def ofText? (text : String) : Option Options := do
  match ← Json.readEntries? text with
  | .object entries => default.setEntries? Key.all entries
  | .array items => default.setItems? Key.all items
  | _ => none

end Options

/-- Values that win over those of options. -/
structure Overrides where
  maxNestingDepth : Option Nat
  maxRecordTypes : Option Nat
  coerceArrayElements : Option Bool
  deriving DecidableEq, Repr

def Options.withOverrides (o : Options) (w : Overrides) : Options where
  maxNestingDepth := w.maxNestingDepth.getD o.maxNestingDepth
  maxRecordTypes := w.maxRecordTypes <|> o.maxRecordTypes
  coerceArrayElements := w.coerceArrayElements.getD o.coerceArrayElements

end TypedExpr
