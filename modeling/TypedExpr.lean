import TypedExpr.Binary
import TypedExpr.Binary.Notation
import TypedExpr.Binary.Order
import TypedExpr.Binary.Reader
import TypedExpr.Binary.Shortest
import TypedExpr.Builtin
import TypedExpr.CaseMap
import TypedExpr.Catalog
import TypedExpr.CommandLine
import TypedExpr.CommandLine.Arguments
import TypedExpr.CommandLine.Help
import TypedExpr.DateTime
import TypedExpr.DateTime.Text
import TypedExpr.Decimal
import TypedExpr.Decimal.Arithmetic
import TypedExpr.Decimal.Binary
import TypedExpr.Decimal.Text
import TypedExpr.Diagnostic
import TypedExpr.Engine
import TypedExpr.Eval
import TypedExpr.Eval.Aggregate
import TypedExpr.Eval.Argument
import TypedExpr.Eval.Arithmetic
import TypedExpr.Eval.Conversion
import TypedExpr.Eval.Members
import TypedExpr.Eval.NumberMembers
import TypedExpr.Eval.Reading
import TypedExpr.Eval.TextMembers
import TypedExpr.Eval.TimeMembers
import TypedExpr.EvalError
import TypedExpr.Expr
import TypedExpr.Expr.Fresh
import TypedExpr.Expr.Text
import TypedExpr.Guid
import TypedExpr.Handlers
import TypedExpr.Hash
import TypedExpr.Integer
import TypedExpr.Json
import TypedExpr.Json.Leaf
import TypedExpr.Json.Materialize
import TypedExpr.Json.OfValue
import TypedExpr.Json.Reader
import TypedExpr.Json.Writer
import TypedExpr.Literal
import TypedExpr.Operand
import TypedExpr.Operand.Literal
import TypedExpr.Operand.Member
import TypedExpr.Operand.Operator
import TypedExpr.Operator
import TypedExpr.OperatorTypes
import TypedExpr.Options
import TypedExpr.Overload
import TypedExpr.Power
import TypedExpr.Proofs.Alike
import TypedExpr.Proofs.CacheRuns
import TypedExpr.Proofs.Characters
import TypedExpr.Proofs.Climbing
import TypedExpr.Proofs.Closure
import TypedExpr.Proofs.Conformance
import TypedExpr.Proofs.DateRange
import TypedExpr.Proofs.DatedEvaluation
import TypedExpr.Proofs.DatedMembers
import TypedExpr.Proofs.DatesWithin
import TypedExpr.Proofs.Derivation
import TypedExpr.Proofs.Doubles
import TypedExpr.Proofs.Equality
import TypedExpr.Proofs.Everywhere
import TypedExpr.Proofs.ExactMatch
import TypedExpr.Proofs.ExactOperands
import TypedExpr.Proofs.ExplicitConversion
import TypedExpr.Proofs.Families
import TypedExpr.Proofs.Formed
import TypedExpr.Proofs.FormedMembers
import TypedExpr.Proofs.FormedOperators
import TypedExpr.Proofs.Height
import TypedExpr.Proofs.ImplicitConversion
import TypedExpr.Proofs.Integer
import TypedExpr.Proofs.Keys
import TypedExpr.Proofs.LeafTexts
import TypedExpr.Proofs.Lexemes
import TypedExpr.Proofs.Lexing
import TypedExpr.Proofs.LiteralMarks
import TypedExpr.Proofs.Materializing
import TypedExpr.Proofs.MemberNames
import TypedExpr.Proofs.MirroredComparisons
import TypedExpr.Proofs.MirroredOperands
import TypedExpr.Proofs.Names
import TypedExpr.Proofs.NestedOperands
import TypedExpr.Proofs.Nesting
import TypedExpr.Proofs.Ordering
import TypedExpr.Proofs.OverloadChoice
import TypedExpr.Proofs.Outcome
import TypedExpr.Proofs.PlainTypes
import TypedExpr.Proofs.Positions
import TypedExpr.Proofs.Promotion
import TypedExpr.Proofs.Reaching
import TypedExpr.Proofs.ReadBack
import TypedExpr.Proofs.Reader
import TypedExpr.Proofs.Reading
import TypedExpr.Proofs.RoundTrip
import TypedExpr.Proofs.SafeAggregates
import TypedExpr.Proofs.SafeArguments
import TypedExpr.Proofs.SafeConversion
import TypedExpr.Proofs.SafeMembers
import TypedExpr.Proofs.SafeNodes
import TypedExpr.Proofs.SafeOperators
import TypedExpr.Proofs.SafeTables
import TypedExpr.Proofs.Scanning
import TypedExpr.Proofs.Scoping
import TypedExpr.Proofs.SortedRows
import TypedExpr.Proofs.Spacing
import TypedExpr.Proofs.Spelling
import TypedExpr.Proofs.TypeSafety
import TypedExpr.Proofs.Types
import TypedExpr.Proofs.Typing
import TypedExpr.Proofs.Undominated
import TypedExpr.Proofs.ValueOrder
import TypedExpr.Proofs.Widening
import TypedExpr.Proofs.Words
import TypedExpr.Record
import TypedExpr.RecordCache
import TypedExpr.Source
import TypedExpr.Source.Grammar
import TypedExpr.Source.State
import TypedExpr.Text.CharClass
import TypedExpr.Text.LetterCase
import TypedExpr.Text.Search
import TypedExpr.Text.Span
import TypedExpr.TimeSpan
import TypedExpr.Token
import TypedExpr.Token.Lexer
import TypedExpr.Ty
import TypedExpr.Ty.Conversion
import TypedExpr.Ty.Equality
import TypedExpr.Ty.Name
import TypedExpr.Value
import TypedExpr.Value.Equality
import TypedExpr.Value.Order
import TypedExpr.Value.Text
import TypedExpr.Main
import TypedExpr.Proofs.BindingStack
import TypedExpr.Proofs.NestingCounter
import TypedExpr.Proofs.Adjoining
import TypedExpr.Proofs.Composition
import TypedExpr.Proofs.ConversionOrder
import TypedExpr.Proofs.IntegerPromotion
import TypedExpr.Proofs.LiteralTexts
import TypedExpr.Proofs.QuotedLiterals
import TypedExpr.Proofs.Refusals
import TypedExpr.Proofs.Blame
import TypedExpr.Proofs.NumberLiterals
import TypedExpr.Proofs.NumberTexts
import TypedExpr.Proofs.IntegralConversion
import TypedExpr.Proofs.ConversionRoundTrips
import TypedExpr.Proofs.WordArithmetic
import TypedExpr.Proofs.SequencePredicates
import TypedExpr.Proofs.FoldedResults
import TypedExpr.Proofs.NegationNormalForm
import TypedExpr.Proofs.Lockstep
import TypedExpr.Proofs.Conditionals
import TypedExpr.Proofs.TextsAlone
import TypedExpr.Proofs.ConditionalSpellings
import TypedExpr.Proofs.MemberCalls
import TypedExpr.Proofs.SpanMembers
import TypedExpr.Proofs.SpanParts
import TypedExpr.Proofs.Pieces
import TypedExpr.Proofs.SpanTicks
import TypedExpr.Proofs.SpanGrammar
import TypedExpr.Proofs.SpanTexts
import TypedExpr.Proofs.SpanRoundTrips
import TypedExpr.Proofs.Calendar
import TypedExpr.Proofs.DateTexts
import TypedExpr.Proofs.DateArithmetic
import TypedExpr.Proofs.CalendarMembers
import TypedExpr.Proofs.TextPositions
import TypedExpr.Proofs.NumberLeaves
import TypedExpr.Proofs.GuidForms
import TypedExpr.Proofs.RecordRuns
import TypedExpr.Proofs.ProjectedTexts
import TypedExpr.Proofs.Projections
import TypedExpr.Proofs.Ancestors
import TypedExpr.Proofs.AncestorOrder
import TypedExpr.Proofs.InheritedMembers
import TypedExpr.Proofs.BareMembers
import TypedExpr.Proofs.ParameterNames
import TypedExpr.Proofs.RelationalAnswers
import TypedExpr.Proofs.TypeNames
import TypedExpr.Proofs.ErrorPlaces
import TypedExpr.Proofs.MessagePlaces
import TypedExpr.Proofs.CaseMapRuns
