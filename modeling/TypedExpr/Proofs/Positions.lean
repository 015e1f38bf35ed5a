import TypedExpr.Proofs.Alike
import TypedExpr.Source.Grammar

/-! # The grammar is blind to positions

Every rule of the grammar goes the same way on the same tokens at other places: to the same
operand, or to the same problem.
-/

namespace TypedExpr.Source

open Reader

/-- Positions do not matter to a reader of parts, whatever names mean. -/
def Part.Blind (part : Part) : Prop := ∀ env, Reader.Blind (part env)

variable {expression operand : Part}

theorem tooDeep_blind : Part.Blind tooDeep := fun _ => .fail _

theorem argumentList_blind {r : Reader Operand} (h : Reader.Blind r) :
    Reader.Blind (argumentList r) := by
  have rest : ∀ args : List Operand,
      Reader.Blind (do skip .closeParen .closeParenOrCommaExpected; return args : Reader _) :=
    fun args => (skip_blind _ _).thenSame fun _ => .pure rfl
  refine (skip_blind _ _).thenSame fun _ => (isAt_blind _).thenSame fun empty => ?_
  exact .ite (.thenSame (.pure rfl) rest) ((items_blind h).thenSame rest)

/-- Behind its name a member does not depend on the token that it begins with. -/
theorem memberAccess_parts (he : Part.Blind expression) (env : Env) (t : Ty)
    (target : Option Operand) :
    ∃ behind : Token → String → Reader Operand,
      memberAccess expression env t target =
        (do
          let start ← token
          let name ← identifier
          next
          behind start name) ∧
      ∀ start start' name, Agree Eq (behind start name) (behind start' name) := by
  refine ⟨_, rfl, fun start start' name => (isAt_blind _).thenSame fun called => .ite ?_ ?_⟩
  · exact .check (Operand.property_unplaced ..)
  · split
    · exact (argumentList_blind (he _)).thenSame fun args =>
        .check (Operand.aggregate_unplaced ..)
    · exact (argumentList_blind (he env)).thenSame fun args => .check (Operand.method_unplaced ..)

theorem memberAccess_blind (he : Part.Blind expression) (env : Env) (t : Ty)
    (target : Option Operand) : Reader.Blind (memberAccess expression env t target) := by
  obtain ⟨behind, parts, alike⟩ := memberAccess_parts he env t target
  rw [parts]
  exact .bind .token fun start start' _ => identifier_blind.thenSame fun name =>
    next_blind.thenSame fun _ => alike start start' name

theorem elementAccess_blind (he : Part.Blind expression) (env : Env) (target : Operand) :
    Reader.Blind (elementAccess expression env target) :=
  .bind .token fun _ _ _ => (skip_blind _ _).thenSame fun _ =>
    (items_blind (he env)).thenSame fun _ => (skip_blind _ _).thenSame fun _ =>
    .check (Operand.index_unplaced ..)

theorem postfixesUpTo_blind (he : Part.Blind expression) (env : Env) (n : Nat) (o : Operand) :
    Reader.Blind (postfixesUpTo expression env n o) := by
  induction n generalizing o with
  | zero => exact .pure rfl
  | succ n ih =>
      refine (isAt_blind _).thenSame fun dot => .ite ?_ ?_
      · exact next_blind.thenSame fun _ =>
          (memberAccess_blind he env _ _).thenSame fun o => ih o
      · refine (isAt_blind _).thenSame fun bracket => .ite ?_ (.pure rfl)
        exact (elementAccess_blind he env o).thenSame fun o => ih o

theorem parenthesized_blind (he : Part.Blind expression) (env : Env) :
    Reader.Blind (parenthesized expression env) :=
  next_blind.thenSame fun _ => (he env).thenSame fun _ => (skip_blind _ _).thenSame fun _ =>
    .pure rfl

theorem iif_blind (he : Part.Blind expression) (env : Env) :
    Reader.Blind (iif expression env) := by
  refine .bind .token fun _ _ _ => next_blind.thenSame fun _ =>
    (argumentList_blind (he env)).thenSame fun args => ?_
  split
  · exact .check (Operand.conditional_unplaced ..)
  · exact .failAt _ _ _

theorem projectionItem_blind (he : Part.Blind expression) (env : Env) :
    Reader.Blind (projectionItem expression env) := by
  refine .bind .token fun _ _ _ => (he env).thenSame fun o => .bind .token fun t u alike => ?_
  cases alike
  refine .ite ?_ ?_
  · exact next_blind.thenSame fun _ => identifier_blind.thenSame fun _ =>
      next_blind.thenSame fun _ => .pure rfl
  · split
    · exact .pure rfl
    · exact .failAt _ _ _

theorem projection_blind (he : Part.Blind expression) (env : Env) :
    Reader.Blind (projection expression env) :=
  .bind .token fun _ _ _ => next_blind.thenSame fun _ => (skip_blind _ _).thenSame fun _ =>
    (items_blind (projectionItem_blind he env)).thenSame fun _ =>
    (skip_blind _ _).thenSame fun _ => (recordType_agree _ _ _).thenSame fun _ => .pure rfl

theorem nullableForm_agree (pos pos' : Nat) (t : Ty) :
    Agree Eq (typeAccess.nullableForm pos t) (typeAccess.nullableForm pos' t) :=
  .ite (.thenSame (.failAt _ _ _) fun _ => next_blind.thenSame fun _ => .pure rfl)
    (next_blind.thenSame fun _ => .pure rfl)

theorem typeAccess_blind (he : Part.Blind expression) (env : Env) (p : Predefined) :
    Reader.Blind (typeAccess expression env p) := by
  refine .bind .token fun start start' _ => next_blind.thenSame fun _ =>
    (isAt_blind _).thenSame fun marked => ?_
  refine .ite (.thenSame (nullableForm_agree _ _ _) fun t => ?_) (.thenSame (.pure rfl) fun t => ?_)
  all_goals
    refine (isAt_blind _).thenSame fun _ => .ite ?_ ?_
    · exact (argumentList_blind (he env)).thenSame fun _ =>
        .check (Operand.construct_unplaced ..)
    · exact (skip_blind _ _).thenSame fun _ => memberAccess_blind he env t none

theorem symbol_blind (he : Part.Blind expression) (env : Env) (x : External) :
    Reader.Blind (symbol expression env x) := by
  refine .bind .token fun t u alike => ?_
  cases alike
  cases x with
  | symbols table => exact .bind (R := fun _ _ => False) (.fail _) fun _ _ none => none.elim
  | value | expr =>
    refine .thenSame (.pure rfl) fun e => next_blind.thenSame fun _ => ?_
    split
    · refine (isAt_blind _).thenSame fun _ => .ite ?_ (.pure rfl)
      exact (argumentList_blind (he env)).thenSame fun _ => .check (Operand.invoke_unplaced ..)
    · exact .pure rfl

theorem named_blind (he : Part.Blind expression) (env : Env) :
    Reader.Blind (named expression env) := by
  refine .bind .token fun t u alike => ?_
  cases alike with
  | mk kind text pos pos' =>
    refine .ite (next_blind.thenSame fun _ => .pure rfl) ?_
    refine .ite (next_blind.thenSame fun _ => .pure rfl) ?_
    refine .ite (next_blind.thenSame fun _ => .pure rfl) (.ite ?_ ?_)
    · split
      · exact next_blind.thenSame fun _ => .pure rfl
      · exact .fail _
    refine .ite (iif_blind he env) (.ite (projection_blind he env) ?_)
    simp only
    split
    · exact typeAccess_blind he env _
    · exact symbol_blind he env _
    · exact memberAccess_blind he env _ _
    · exact .fail _

theorem literal_blind {x y : Except Diagnostic Operand} (h : unplaced x = unplaced y) :
    Agree Eq (literal x) (literal y) :=
  (Agree.check h).thenSame fun _ => next_blind.thenSame fun _ => .pure rfl

theorem primary_blind (he : Part.Blind expression) (env : Env) :
    Reader.Blind (primary expression env) := by
  have start : Reader.Blind (primaryStart expression env) := by
    refine .bind .token fun t u alike => ?_
    have quoted := Operand.ofQuoted_unplaced alike
    have integer := Operand.ofInteger_unplaced alike
    have real := Operand.ofReal_unplaced alike
    rw [alike.kind_eq]
    split
    · exact named_blind he env
    · exact literal_blind quoted
    · exact literal_blind integer
    · exact literal_blind real
    · exact parenthesized_blind he env
    · exact .fail _
  exact start.thenSame fun _ => remaining_blind.thenSame fun n => postfixesUpTo_blind he env n _

theorem unaryOf_blind (ho : Part.Blind operand) (he : Part.Blind expression) :
    Part.Blind (unaryOf operand expression) := by
  intro env
  refine .bind .token fun t u alike => ?_
  have unary := Operand.unary_unplaced alike
  cases alike with
  | mk kind text pos pos' =>
    have same : Token.unaryOp? ⟨kind, text, pos⟩ = Token.unaryOp? ⟨kind, text, pos'⟩ := rfl
    simp only [same]
    split
    · exact primary_blind he env
    · refine next_blind.thenSame fun _ => .bind .token fun number number' alike => ?_
      cases alike
      refine .ite ?_ ?_
      · refine .thenSame (.modify fun s s' alike => ?_) fun _ => primary_blind he env
        exact ⟨.mk .., alike.rest, alike.cache⟩
      · exact (ho env).thenSame fun o => .check (unary _ o)

theorem joinUpTo_blind {r : Reader Operand} (h : Reader.Blind r) (level : Precedence) (n : Nat)
    (left : Operand) : Reader.Blind (joinUpTo level r n left) := by
  induction n generalizing left with
  | zero => exact .pure rfl
  | succ n ih =>
      refine .bind .token fun t u alike => ?_
      have binary := Operand.binary_unplaced alike
      cases alike
      refine .ite (next_blind.thenSame fun _ => h.thenSame fun right => ?_) (.pure rfl)
      exact .thenSame (.check (binary left right)) fun o => ih o

section Operands

variable {r : Reader Operand} {s s' : State}

/-- Operands that are read alike are joined alike. -/
theorem joined_matching (h : Reader.Blind r) (first : Matching Eq (r s) (r s'))
    (level : Precedence) : Matching Eq (joined level r s) (joined level r s') :=
  first.andThenSame fun left => remaining_blind.thenSame fun n => joinUpTo_blind h level n left

theorem joined_blind (h : Reader.Blind r) (level : Precedence) :
    Reader.Blind (joined level r) :=
  fun s s' alike => joined_matching h (h s s' alike) level

theorem binaryOf_matching (h : Reader.Blind r) (first : Matching Eq (r s) (r s')) :
    Matching Eq (binaryOf r s) (binaryOf r s') := by
  have and := joined_blind (joined_blind (joined_blind h .multiplicative) .additive) .comparison
  refine joined_matching (joined_blind and _) (joined_matching and ?_ _) _
  exact joined_matching (joined_blind (joined_blind h _) _)
    (joined_matching (joined_blind h _) (joined_matching h first _) _) _

theorem binaryOf_blind (h : Reader.Blind r) : Reader.Blind (binaryOf r) :=
  fun s s' alike => binaryOf_matching h (h s s' alike)

end Operands

/-- Tests that are read alike are gone on with alike. -/
theorem expressionOf_matching (he : Part.Blind expression) {env : Env} {s s' : State}
    (test : Matching Eq (binaryOf (operand env) s) (binaryOf (operand env) s')) :
    Matching Eq (expressionOf operand expression env s)
      (expressionOf operand expression env s') := by
  refine test.andThenSame (r := binaryOf (operand env)) fun o =>
    (isAt_blind _).thenSame fun choice => .ite ?_ (.pure rfl)
  exact next_blind.thenSame fun _ => (he env).thenSame fun t => (skip_blind _ _).thenSame fun _ =>
    (he env).thenSame fun f => .check (Operand.conditional_unplaced ..)

theorem expressionOf_blind (ho : Part.Blind operand) (he : Part.Blind expression) :
    Part.Blind (expressionOf operand expression) :=
  fun env s s' alike => expressionOf_matching he (binaryOf_blind (ho env) s s' alike)

/-- However many levels are left, positions do not matter. -/
theorem levels_blind (n : Nat) : Part.Blind (expressionAt n) ∧ Part.Blind (operandAt n) := by
  induction n with
  | zero => exact ⟨tooDeep_blind, unaryOf_blind tooDeep_blind tooDeep_blind⟩
  | succ n ih =>
      have he : Part.Blind (expressionOf (operandAt n) (expressionAt n)) :=
        expressionOf_blind ih.2 ih.1
      exact ⟨he, unaryOf_blind ih.2 he⟩

/-- Expressions that are read alike are whole texts alike. -/
theorem wholeExpression_matching {env : Env} {s s' : State} (first : Matching Eq
      (expressionAt env.maxDepth env s) (expressionAt env.maxDepth env s')) (resultTy : Option Ty) :
    Matching Eq (wholeExpression resultTy env s) (wholeExpression resultTy env s') := by
  have rest : ∀ e : Expr, Reader.Blind (do expect .endOfText .syntaxError; return e) :=
    fun e => (expect_blind _ _).thenSame fun _ => .pure rfl
  refine first.andThenSame (r := expressionAt env.maxDepth env) fun o => ?_
  cases resultTy with
  | none => exact .thenSame (.pure rfl) rest
  | some t =>
      simp only
      split
      · exact .thenSame (.pure rfl) rest
      · exact .thenSame (.failAt _ _ _) rest

theorem wholeExpression_blind (resultTy : Option Ty) (env : Env) :
    Reader.Blind (wholeExpression resultTy env) :=
  fun s s' alike => wholeExpression_matching ((levels_blind _).1 env s s' alike) resultTy

end TypedExpr.Source
