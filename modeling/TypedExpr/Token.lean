import TypedExpr.Diagnostic

/-!
# Tokens

The words and signs that an expression is written with. A text is read into the run of its
tokens, which ends either at the end of the text or at the first character that fits no token.
-/

namespace TypedExpr

inductive TokenKind where
  | endOfText
  | identifier
  | stringLiteral
  | integerLiteral
  | realLiteral
  | exclamation
  | percent
  | ampersand
  | openParen
  | closeParen
  | asterisk
  | plus
  | comma
  | minus
  | dot
  | slash
  | colon
  | lessThan
  | equal
  | greaterThan
  | question
  | openBracket
  | closeBracket
  | bar
  | exclamationEqual
  | doubleAmpersand
  | lessThanEqual
  | lessGreater
  | doubleEqual
  | greaterThanEqual
  | doubleBar
  deriving DecidableEq, Repr

def TokenKind.name : TokenKind → String
  | endOfText => "End"
  | identifier => "Identifier"
  | stringLiteral => "StringLiteral"
  | integerLiteral => "IntegerLiteral"
  | realLiteral => "RealLiteral"
  | exclamation => "Exclamation"
  | percent => "Percent"
  | ampersand => "Ampersand"
  | openParen => "OpenParen"
  | closeParen => "CloseParen"
  | asterisk => "Asterisk"
  | plus => "Plus"
  | comma => "Comma"
  | minus => "Minus"
  | dot => "Dot"
  | slash => "Slash"
  | colon => "Colon"
  | lessThan => "LessThan"
  | equal => "Equal"
  | greaterThan => "GreaterThan"
  | question => "Question"
  | openBracket => "OpenBracket"
  | closeBracket => "CloseBracket"
  | bar => "Bar"
  | exclamationEqual => "ExclamationEqual"
  | doubleAmpersand => "DoubleAmpersand"
  | lessThanEqual => "LessThanEqual"
  | lessGreater => "LessGreater"
  | doubleEqual => "DoubleEqual"
  | greaterThanEqual => "GreaterThanEqual"
  | doubleBar => "DoubleBar"

/-- A token: its kind, its text as written, and the position of its first character. -/
structure Token where
  kind : TokenKind
  text : String
  pos : Nat
  deriving DecidableEq, Repr

namespace Token

/-- An identifier spelled `word`, in any case. -/
def isWord (t : Token) (word : String) : Bool :=
  t.kind == .identifier && Text.sameIgnoringCase t.text word

/-- The token that stands at the end of a text of `pos` characters. -/
def atEnd (pos : Nat) : Token := ⟨.endOfText, "", pos⟩

end Token

/-- The tokens of a text in order, up to its end or to the first lexical error. -/
inductive TokenRun where
  | done (pos : Nat)
  | failed (error : Diagnostic)
  | token (t : Token) (rest : TokenRun)
  deriving DecidableEq, Repr

namespace TokenRun

def tokens : TokenRun → List Token
  | done _ | failed _ => []
  | token t rest => t :: rest.tokens

/-- The lexical error that ends the run, if any. -/
def error? : TokenRun → Option Diagnostic
  | done _ => none
  | failed e => some e
  | token _ rest => rest.error?

def length (run : TokenRun) : Nat := run.tokens.length

end TokenRun
end TypedExpr
