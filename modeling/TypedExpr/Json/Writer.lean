import TypedExpr.Binary.Notation
import TypedExpr.Guid
import TypedExpr.Json

/-!
# Writing JSON

On one line without blanks, or with one item a line, indented by two blanks a level. Doubles are in
exchange notation, and `null` where they are not finite. Of all characters only quotes, backslashes
and control characters are escaped.
-/

namespace TypedExpr.Json

def escape (c : Char) : List Char :=
  match c with
  | '"' => ['\\', '"']
  | '\\' => ['\\', '\\']
  | '\x08' => ['\\', 'b']
  | '\x0c' => ['\\', 'f']
  | '\n' => ['\\', 'n']
  | '\r' => ['\\', 'r']
  | '\t' => ['\\', 't']
  | c => if c.toNat < 0x20 then '\\' :: 'u' :: Guid.hexDigits 4 c.toNat else [c]

def quoted (s : String) : String := String.ofList ('"' :: s.toList.flatMap escape ++ ['"'])

/-- A document that is neither an array nor an object. -/
def scalarText : Json → String
  | null => "null"
  | bool b => if b then "true" else "false"
  | int n => toString n
  | float x => (Binary.exchangeText? x).getD "null"
  | string s => quoted s
  | _ => ""

mutual

/-- The document on one line. -/
def compact : Json → String
  | array items => "[" ++ Text.joinWith "," (compactItems items) ++ "]"
  | object entries => "\x7b" ++ Text.joinWith "," (compactEntries entries) ++ "\x7d"
  | j => j.scalarText

def compactItems : List Json → List String
  | [] => []
  | j :: js => j.compact :: compactItems js

def compactEntries : List (String × Json) → List String
  | [] => []
  | (key, j) :: rest => (quoted key ++ ":" ++ j.compact) :: compactEntries rest

end

def newline (level : Nat) : String := "\n" ++ String.ofList (List.replicate (2 * level) ' ')

/-- Parts between delimiters, one a line at the level within. -/
def block (level : Nat) (opening closing : String) (parts : List String) : String :=
  if parts.isEmpty then opening ++ closing
  else
    opening ++ newline (level + 1) ++ Text.joinWith ("," ++ newline (level + 1)) parts ++
      newline level ++ closing

mutual

/-- The document on several lines, the first of which stands at a level. -/
def prettyAt : Nat → Json → String
  | level, array items => block level "[" "]" (prettyItems (level + 1) items)
  | level, object entries => block level "\x7b" "\x7d" (prettyEntries (level + 1) entries)
  | _, j => j.scalarText

def prettyItems : Nat → List Json → List String
  | _, [] => []
  | level, j :: js => prettyAt level j :: prettyItems level js

def prettyEntries : Nat → List (String × Json) → List String
  | _, [] => []
  | level, (key, j) :: rest =>
    (quoted key ++ ": " ++ prettyAt level j) :: prettyEntries level rest

end

def pretty (j : Json) : String := prettyAt 0 j

end TypedExpr.Json
