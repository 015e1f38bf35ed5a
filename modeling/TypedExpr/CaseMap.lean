import TypedExpr.Text.LetterCase

/-!
# Maps over names whose case does not matter

A map that keeps its entries in the order in which they were added, under keys that are compared
in small letters. The first spelling of a key stays, and a second entry for it is refused.
-/

namespace TypedExpr

/-- Entries in the order in which they were added. -/
structure CaseMap (α : Type) where
  entries : List (String × α)

namespace CaseMap

variable {α : Type}

def empty : CaseMap α := ⟨[]⟩

/-- Two spellings of one key. -/
def sameKey (a b : String) : Bool := Text.toLowercase a == Text.toLowercase b

/-- The entry stored under any spelling of `key`, with its own spelling. -/
def entry? (m : CaseMap α) (key : String) : Option (String × α) :=
  m.entries.find? fun e => sameKey e.1 key

/-- The value stored under any spelling of `key`. -/
def get? (m : CaseMap α) (key : String) : Option α := (m.entry? key).map (·.2)

def contains (m : CaseMap α) (key : String) : Bool := (m.entry? key).isSome

def position? (m : CaseMap α) (key : String) : Option Nat :=
  m.entries.findIdx? fun e => sameKey e.1 key

/-- Add an entry, or `none` when the key is taken under some spelling. -/
def insert? (m : CaseMap α) (key : String) (value : α) : Option (CaseMap α) :=
  if m.contains key then none else some ⟨m.entries ++ [(key, value)]⟩

/-- Add an entry unless the key is taken under some spelling. -/
def insert (m : CaseMap α) (key : String) (value : α) : CaseMap α :=
  (m.insert? key value).getD m

/-- The map of the entries whose key occurs for the first time. -/
def ofList (entries : List (String × α)) : CaseMap α :=
  entries.foldl (fun m e => m.insert e.1 e.2) empty

def size (m : CaseMap α) : Nat := m.entries.length

def values (m : CaseMap α) : List α := m.entries.map (·.2)

end CaseMap
end TypedExpr
