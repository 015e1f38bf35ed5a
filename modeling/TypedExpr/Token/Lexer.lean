import TypedExpr.Token

/-!
# Reading tokens

One token is read from the front of a text at a time, each as long as its kind allows. The
functions here answer how many characters belong to the token; `Token.scan` cuts the text
accordingly and skips the blanks between tokens.
-/

namespace TypedExpr.Token

/-- Identifiers open with a letter, an underscore or one `@`. -/
def opensIdentifier (c : Char) : Bool := c == '@' || c == '_' || Text.isXidStart c

/-- Identifiers go on with letters, marks, digits and connectors. -/
def continuesIdentifier (c : Char) : Bool := c == '_' || Text.isXidContinue c

def isQuote (c : Char) : Bool := c == '"' || c == '\''

def digitCount (cs : List Char) : Nat := (cs.takeWhile Text.isDigit).length

/-- The number of characters after an opening quote, the closing one included. A doubled quote
stands for itself and does not close the literal. -/
def quotedLength? (quote : Char) : List Char → Option Nat
  | [] => none
  | c :: cs =>
    if c = quote then
      match cs with
      | d :: rest => if d = quote then (quotedLength? quote rest).map (· + 2) else some 1
      | [] => some 1
    else (quotedLength? quote cs).map (· + 1)

/-- A part of a number: nothing, or so many characters, or an error at that many characters. -/
inductive NumberPart where
  | absent
  | present (length : Nat)
  | noDigit (length : Nat)

def fractionPart : List Char → NumberPart
  | '.' :: cs => if digitCount cs = 0 then .noDigit 1 else .present (1 + digitCount cs)
  | _ => .absent

/-- An `e`, an optional sign and the digits that must follow. -/
def exponentPart : List Char → NumberPart
  | c :: cs =>
    if c = 'e' ∨ c = 'E' then
      let signed := match cs with
        | '+' :: _ | '-' :: _ => 1
        | _ => 0
      let digits := digitCount (cs.drop signed)
      if digits = 0 then .noDigit (1 + signed) else .present (1 + signed + digits)
    else .absent
  | [] => .absent

/-- A suffix that makes any number a real one. -/
def suffixLength : List Char → Nat
  | 'f' :: _ | 'F' :: _ => 1
  | _ => 0

/-- The kind and length of the number at the front of `cs`; an error stands at the place where a
digit is missing. -/
def number (cs : List Char) : Except (Problem × Nat) (TokenKind × Nat) :=
  let whole := digitCount cs
  let withFraction (n : Nat) (real : Bool) : Except (Problem × Nat) (TokenKind × Nat) :=
    match exponentPart (cs.drop n) with
    | .noDigit k => .error (.digitExpected, n + k)
    | .present k =>
      .ok (.realLiteral, n + k + suffixLength (cs.drop (n + k)))
    | .absent =>
      let k := suffixLength (cs.drop n)
      .ok (if real || k = 1 then .realLiteral else .integerLiteral, n + k)
  match fractionPart (cs.drop whole) with
  | .noDigit k => .error (.digitExpected, whole + k)
  | .present k => withFraction (whole + k) true
  | .absent => withFraction whole false

/-- A sign of one character, or of two when `second` follows. -/
def pair (second : Char) (one two : TokenKind) : List Char → TokenKind × Nat
  | c :: _ => if c = second then (two, 2) else (one, 1)
  | [] => (one, 1)

/-- The sign that `c` opens, with its length. -/
def sign? (c : Char) (cs : List Char) : Option (TokenKind × Nat) :=
  match c with
  | '!' => some (pair '=' .exclamation .exclamationEqual cs)
  | '%' => some (.percent, 1)
  | '&' => some (pair '&' .ampersand .doubleAmpersand cs)
  | '(' => some (.openParen, 1)
  | ')' => some (.closeParen, 1)
  | '*' => some (.asterisk, 1)
  | '+' => some (.plus, 1)
  | ',' => some (.comma, 1)
  | '-' => some (.minus, 1)
  | '.' => some (.dot, 1)
  | '/' => some (.slash, 1)
  | ':' => some (.colon, 1)
  | '<' =>
    some <| match cs with
      | '=' :: _ => (.lessThanEqual, 2)
      | '>' :: _ => (.lessGreater, 2)
      | _ => (.lessThan, 1)
  | '=' => some (pair '=' .equal .doubleEqual cs)
  | '>' => some (pair '=' .greaterThan .greaterThanEqual cs)
  | '?' => some (.question, 1)
  | '[' => some (.openBracket, 1)
  | ']' => some (.closeBracket, 1)
  | '|' => some (pair '|' .bar .doubleBar cs)
  | _ => none

/-- The kind and length of the token that `c` opens and `cs` continues, or the error and the
number of characters before it. -/
def lexeme (c : Char) (cs : List Char) : Except (Problem × Nat) (TokenKind × Nat) :=
  match sign? c cs with
  | some found => .ok found
  | none =>
    if isQuote c then
      match quotedLength? c cs with
      | some n => .ok (.stringLiteral, 1 + n)
      | none => .error (.unterminatedString, 1 + cs.length)
    else if opensIdentifier c then
      .ok (.identifier, 1 + (cs.takeWhile continuesIdentifier).length)
    else if Text.isDigit c then number (c :: cs)
    else .error (.invalidCharacter c, 0)

/-- The tokens of a text that starts at position `pos` and of which the first `skip` characters
belong to the token read before. -/
def scanFrom (skip pos : Nat) : List Char → TokenRun
  | [] => .done pos
  | c :: cs =>
    match skip with
    | skip + 1 => scanFrom skip (pos + 1) cs
    | 0 =>
      if Text.isWhiteSpace c then scanFrom 0 (pos + 1) cs
      else match lexeme c cs with
        | .ok (kind, n) =>
          .token ⟨kind, String.ofList ((c :: cs).take n), pos⟩ (scanFrom (n - 1) (pos + 1) cs)
        | .error (problem, n) => .failed ⟨problem, pos + n⟩

def scan (text : String) : TokenRun := scanFrom 0 0 text.toList

end TypedExpr.Token
