import TypedExpr.Text.Search

/-!
# Diagnostics

Why a text is not an expression. A problem names its cause with the texts that describe it; the
code, the phase and the wording follow from the cause. A diagnostic adds the character position
at which reading stopped.
-/

namespace TypedExpr

/-- The phase that rejected the text. -/
inductive Phase where
  /-- A bad character, number or string literal. -/
  | lexical
  /-- An unexpected or missing token. -/
  | syntactic
  /-- A well-formed text that does not type-check. -/
  | semantic
  deriving DecidableEq, Repr

def Phase.title : Phase → String
  | .lexical => "lexical error"
  | .syntactic => "syntax error"
  | .semantic => "semantic error"

def Phase.name : Phase → String
  | .lexical => "Lexical"
  | .syntactic => "Syntax"
  | .semantic => "Semantic"

/-- The causes of a rejected text. -/
inductive Problem where
  | unterminatedString
  | invalidCharacter (c : Char)
  | digitExpected
  | syntaxError
  | expressionExpected
  | identifierExpected
  | openParenExpected
  | closeParenOrOperatorExpected
  | closeParenOrCommaExpected
  | closeBracketOrCommaExpected
  | colonExpected
  | dotOrOpenParenExpected
  | invalidInteger (text : String)
  | invalidReal (text : String)
  | invalidCharacterLiteral
  | missingAs
  | nestingTooDeep (limit : Nat)
  | duplicateIdentifier (name : String)
  | unknownIdentifier (name : String)
  | noItInScope
  | typeMismatch (expected : String)
  | incompatibleOperand (op operand : String)
  | incompatibleOperands (op left right : String)
  | testNotBoolean
  | bothConvert (whenTrue whenFalse : String)
  | neitherConverts (whenTrue whenFalse : String)
  | iifNeedsThreeArguments
  | lambdaArgumentsMismatch
  | noNullableForm (type : String)
  | noMatchingConstructor (type : String)
  | ambiguousConstructor (type : String)
  | cannotConvert (source target : String)
  | unknownMember (name type : String)
  | noApplicableMethod (name type : String)
  | methodsInaccessible (type : String)
  | methodIsVoid (name type : String)
  | ambiguousMethod (name type : String)
  | noApplicableAggregate (name : String)
  | severalArrayIndexes
  | indexNotInteger
  | noApplicableIndexer (type : String)
  | ambiguousIndexer (type : String)
  | invalidProjection (reason : String)
  | notAValue (name : String)
  deriving DecidableEq, Repr

namespace Problem

/-- The number of a problem: one thousand for each phase. -/
def code : Problem → Nat
  | unterminatedString => 1001
  | invalidCharacter _ => 1002
  | digitExpected => 1003
  | syntaxError => 2001
  | expressionExpected => 2002
  | identifierExpected => 2003
  | openParenExpected => 2004
  | closeParenOrOperatorExpected => 2005
  | closeParenOrCommaExpected => 2006
  | closeBracketOrCommaExpected => 2007
  | colonExpected => 2008
  | dotOrOpenParenExpected => 2009
  | invalidInteger _ => 2010
  | invalidReal _ => 2011
  | invalidCharacterLiteral => 2012
  | missingAs => 2013
  | nestingTooDeep _ => 2014
  | duplicateIdentifier _ => 3001
  | unknownIdentifier _ => 3002
  | noItInScope => 3003
  | typeMismatch _ => 3004
  | incompatibleOperand .. => 3005
  | incompatibleOperands .. => 3006
  | testNotBoolean => 3007
  | bothConvert .. => 3008
  | neitherConverts .. => 3009
  | iifNeedsThreeArguments => 3010
  | lambdaArgumentsMismatch => 3011
  | noNullableForm _ => 3012
  | noMatchingConstructor _ => 3013
  | ambiguousConstructor _ => 3014
  | cannotConvert .. => 3015
  | unknownMember .. => 3016
  | noApplicableMethod .. => 3017
  | methodsInaccessible _ => 3018
  | methodIsVoid .. => 3019
  | ambiguousMethod .. => 3020
  | noApplicableAggregate _ => 3021
  | severalArrayIndexes => 3022
  | indexNotInteger => 3023
  | noApplicableIndexer _ => 3024
  | ambiguousIndexer _ => 3025
  | invalidProjection _ => 3026
  | notAValue _ => 3027

def phase (p : Problem) : Phase :=
  if p.code < 2000 then .lexical else if p.code < 3000 then .syntactic else .semantic

/-- The wording, with numbered places for the texts that describe the cause. -/
def template : Problem → String
  | unterminatedString => "Unterminated string literal"
  | invalidCharacter _ => "Syntax error '\x7b0\x7d'"
  | digitExpected => "Digit expected"
  | syntaxError => "Syntax error"
  | expressionExpected => "Expression expected"
  | identifierExpected => "Identifier expected"
  | openParenExpected => "'(' expected"
  | closeParenOrOperatorExpected => "')' or operator expected"
  | closeParenOrCommaExpected => "')' or ',' expected"
  | closeBracketOrCommaExpected => "']' or ',' expected"
  | colonExpected => "':' expected"
  | dotOrOpenParenExpected => "'.' or '(' expected"
  | invalidInteger _ => "Invalid integer literal '\x7b0\x7d'"
  | invalidReal _ => "Invalid real literal '\x7b0\x7d'"
  | invalidCharacterLiteral => "Character literal must contain exactly one character"
  | missingAs => "Expression is missing an 'as' clause"
  | nestingTooDeep _ => "Expression nesting exceeds the maximum depth of \x7b0\x7d"
  | duplicateIdentifier _ => "The identifier '\x7b0\x7d' was defined more than once"
  | unknownIdentifier _ => "Unknown identifier '\x7b0\x7d'"
  | noItInScope => "No 'it' is in scope"
  | typeMismatch _ => "Expression of type '\x7b0\x7d' expected"
  | incompatibleOperand .. => "Operator '\x7b0\x7d' incompatible with operand type '\x7b1\x7d'"
  | incompatibleOperands .. =>
    "Operator '\x7b0\x7d' incompatible with operand types '\x7b1\x7d' and '\x7b2\x7d'"
  | testNotBoolean => "The first expression must be of type 'Boolean'"
  | bothConvert .. => "Both of the types '\x7b0\x7d' and '\x7b1\x7d' convert to the other"
  | neitherConverts .. => "Neither of the types '\x7b0\x7d' and '\x7b1\x7d' converts to the other"
  | iifNeedsThreeArguments => "The 'iif' function requires three arguments"
  | lambdaArgumentsMismatch => "Argument list incompatible with lambda expression"
  | noNullableForm _ => "Type '\x7b0\x7d' has no nullable form"
  | noMatchingConstructor _ => "No matching constructor in type '\x7b0\x7d'"
  | ambiguousConstructor _ => "Ambiguous invocation of '\x7b0\x7d' constructor"
  | cannotConvert .. => "A value of type '\x7b0\x7d' cannot be converted to type '\x7b1\x7d'"
  | unknownMember .. => "No property or field '\x7b0\x7d' exists in type '\x7b1\x7d'"
  | noApplicableMethod .. => "No applicable method '\x7b0\x7d' exists in type '\x7b1\x7d'"
  | methodsInaccessible _ => "Methods on type '\x7b0\x7d' are not accessible"
  | methodIsVoid .. => "Method '\x7b0\x7d' in type '\x7b1\x7d' does not return a value"
  | ambiguousMethod .. => "Ambiguous invocation of method '\x7b0\x7d' in type '\x7b1\x7d'"
  | noApplicableAggregate _ => "No applicable aggregate method '\x7b0\x7d' exists"
  | severalArrayIndexes => "Indexing of multi-dimensional arrays is not supported"
  | indexNotInteger => "Array index must be an integer expression"
  | noApplicableIndexer _ => "No applicable indexer exists in type '\x7b0\x7d'"
  | ambiguousIndexer _ => "Ambiguous invocation of indexer in type '\x7b0\x7d'"
  | invalidProjection _ => "Invalid projection: \x7b0\x7d"
  | notAValue _ => "The identifier '\x7b0\x7d' does not refer to a value"

/-- The texts that describe the cause, in the order of the template's places. -/
def arguments : Problem → List String
  | invalidCharacter c => [String.singleton c]
  | nestingTooDeep limit => [toString limit]
  | invalidInteger a | invalidReal a | duplicateIdentifier a | unknownIdentifier a
  | typeMismatch a | noNullableForm a | noMatchingConstructor a | ambiguousConstructor a
  | methodsInaccessible a | noApplicableAggregate a | noApplicableIndexer a
  | ambiguousIndexer a | invalidProjection a | notAValue a => [a]
  | incompatibleOperand a b | bothConvert a b | neitherConverts a b | cannotConvert a b
  | unknownMember a b | noApplicableMethod a b | methodIsVoid a b | ambiguousMethod a b => [a, b]
  | incompatibleOperands a b c => [a, b, c]
  | _ => []

end Problem

namespace Message

/-- The place number `i` as a template writes it. -/
def place (i : Nat) : String := "\x7b" ++ toString i ++ "\x7d"

/-- Fill the places from number `i` on with the given texts, one place after the other: a place
that an inserted text brings along is filled too when its turn comes. -/
def fillFrom (i : Nat) (text : String) : List String → String
  | [] => text
  | a :: rest => fillFrom (i + 1) (Text.replace (place i) a text) rest

def fill (template : String) (arguments : List String) : String := fillFrom 0 template arguments

end Message

def Problem.message (p : Problem) : String := Message.fill p.template p.arguments

/-- A rejected text: why, and at which character. -/
structure Diagnostic where
  problem : Problem
  offset : Nat
  deriving DecidableEq, Repr

end TypedExpr
