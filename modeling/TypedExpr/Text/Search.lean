import TypedExpr.Text.CharClass

/-!
# Searching text

Trimming, splitting and replacing on lists of characters. Positions count characters. Two
spellings of one name agree when they differ only in the case of ASCII letters.
-/

namespace TypedExpr.Text

/-- Two texts that differ at most in the case of ASCII letters. -/
def sameIgnoringCase (a b : String) : Bool :=
  a.toList.map Char.toLower == b.toList.map Char.toLower

/-- The text from its first character that is not blank. -/
def trimStart (s : List Char) : List Char := s.dropWhile isWhiteSpace

def trimChars (s : List Char) : List Char := (trimStart (trimStart s).reverse).reverse

/-- The text without the blanks around it. -/
def trim (s : String) : String := String.ofList (trimChars s.toList)

/-- What follows `head` in a text that begins with it. -/
def dropHead? : (head s : List Char) → Option (List Char)
  | [], s => some s
  | _ :: _, [] => none
  | h :: hs, c :: cs => if h = c then dropHead? hs cs else none

/-- What precedes `tail` in a text that ends with it. -/
def dropTail? (tail s : List Char) : Option (List Char) :=
  (dropHead? tail.reverse s.reverse).map List.reverse

def splitFirst? (sep : Char) : List Char → Option (List Char × List Char)
  | [] => none
  | c :: cs =>
    if c = sep then some ([], cs)
    else (splitFirst? sep cs).map fun (before, after) => (c :: before, after)

/-- The pieces between separators; a text without a separator is one piece. -/
def splitAll (sep : Char) : List Char → List (List Char)
  | [] => [[]]
  | c :: cs =>
    match splitAll sep cs with
    | piece :: pieces => if c = sep then [] :: piece :: pieces else (c :: piece) :: pieces
    | [] => [[c]]

/-- The least position at which `word` occurs. -/
def positionOf? (word : List Char) : List Char → Option Nat
  | [] => if word.isEmpty then some 0 else none
  | c :: cs => if word.isPrefixOf (c :: cs) then some 0 else (positionOf? word cs).map (· + 1)

/-- Replace the occurrences of `word` from left to right, after passing over `skip` characters
that an occurrence has already taken. -/
def replaceFrom (word new : List Char) : (skip : Nat) → List Char → List Char
  | _, [] => []
  | skip + 1, _ :: cs => replaceFrom word new skip cs
  | 0, c :: cs =>
    if word.isPrefixOf (c :: cs) then new ++ replaceFrom word new (word.length - 1) cs
    else c :: replaceFrom word new 0 cs

/-- Replace each occurrence of a nonempty `word`; occurrences do not overlap. -/
def replace (word new : String) (s : String) : String :=
  String.ofList (replaceFrom word.toList new.toList 0 s.toList)

/-- Pieces written one after the other with a separator between them. -/
def joinWith (sep : String) : List String → String
  | [] => ""
  | [s] => s
  | s :: rest => s ++ sep ++ joinWith sep rest

end TypedExpr.Text
