import TypedExpr.Proofs.Refusals

/-! # Every error belongs to a token

Each rule of the grammar, and so each reader of whole texts, stops only at errors that are accounted
for by the tokens that it reads.
-/

namespace TypedExpr.Source

open Reader

variable {b : Blame} {expression operand : Part} {env : Env}

namespace Blame

/-- Errors of the part are accounted for, whatever names mean. -/
def ExplainsPart (b : Blame) (part : Part) : Prop := ∀ env, b.Explains (part env)

end Blame

theorem tooDeep_explained : b.ExplainsPart tooDeep := fun _ => .fail nofun

theorem argumentList_explained {r : Reader Operand} (h : b.Explains r) :
    b.Explains (argumentList r) := by
  have rest : ∀ args : List Operand,
      b.Explains (do skip .closeParen .closeParenOrCommaExpected; return args : Reader _) :=
    fun args => .bind (.skip _ nofun) fun _ => .pure args
  refine .bind (.skip _ nofun) fun _ => .bind (.isAt _) fun _ => ?_
  exact .ite (fun _ => .bind (.pure _) rest)
    fun _ => .bind (.items h) rest

theorem memberAccess_explained (he : b.ExplainsPart expression) (t : Ty)
    (target : Option Operand) : b.Explains (memberAccess expression env t target) := by
  refine .token fun start seen => .bind .identifier fun name =>
    .bind .next fun _ => .bind (.isAt _) fun called => ?_
  refine .ite (fun _ => .check seen Operand.property_refusedAt) fun _ => ?_
  split
  · exact (argumentList_explained (he _)).bind fun _ => .check seen Operand.aggregate_refusedAt
  · exact (argumentList_explained (he env)).bind fun _ => .check seen Operand.method_refusedAt

theorem elementAccess_explained (he : b.ExplainsPart expression) (target : Operand) :
    b.Explains (elementAccess expression env target) :=
  .token fun _ seen => .bind (.skip _ nofun) fun _ =>
    .bind (.items (he env)) fun _ => .bind (.skip _ nofun) fun _ =>
    .check seen Operand.index_refusedAt

theorem postfixesUpTo_explained (he : b.ExplainsPart expression) (n : Nat) (o : Operand) :
    b.Explains (postfixesUpTo expression env n o) := by
  induction n generalizing o with
  | zero => exact .pure o
  | succ n ih =>
      refine .bind (.isAt _) fun _ => .ite (fun _ => ?_) fun _ => ?_
      · exact .bind .next fun _ => (memberAccess_explained he _ _).bind ih
      · refine .bind (.isAt _) fun _ => .ite (fun _ => ?_) fun _ => .pure o
        exact (elementAccess_explained he o).bind ih

theorem parenthesized_explained (he : b.ExplainsPart expression) :
    b.Explains (parenthesized expression env) :=
  .bind .next fun _ => (he env).bind fun _ =>
    .bind (.skip _ nofun) fun _ => .pure _

theorem iif_explained (he : b.ExplainsPart expression) : b.Explains (iif expression env) := by
  refine .token fun start seen => .bind .next fun _ =>
    (argumentList_explained (he env)).bind fun args => ?_
  split
  · exact .check seen Operand.conditional_refusedAt
  · exact .failAt seen nofun

theorem projectionItem_explained (he : b.ExplainsPart expression) :
    b.Explains (projectionItem expression env) := by
  refine .token fun start seen => (he env).bind fun o => .token fun _ _ => .ite (fun _ => ?_)
    fun _ => ?_
  · exact .bind .next fun _ => .bind .identifier fun _ =>
      .bind .next fun _ => .pure _
  · split
    · exact .pure _
    · exact .failAt seen (by simp)

theorem projection_explained (he : b.ExplainsPart expression) :
    b.Explains (projection expression env) :=
  .token fun _ seen => .bind .next fun _ => .bind (.skip _ nofun) fun _ =>
    .bind (.items (projectionItem_explained he)) fun _ =>
    .bind (.skip _ nofun) fun _ => .bind (.recordType _ seen) fun _ => .pure _

theorem typeAccess_explained (he : b.ExplainsPart expression) (p : Predefined) :
    b.Explains (typeAccess expression env p) := by
  refine .token fun start seen => .bind .next fun _ =>
    .bind (.isAt _) fun _ => ?_
  have form : b.Explains (typeAccess.nullableForm start.pos (.predefined p)) :=
    .ite (fun _ => .bind (.failAt seen nofun) fun _ => .bind .next fun _ =>
      .pure _) fun _ => .bind .next fun _ => .pure _
  have used : ∀ t : Ty, b.Explains (do
      if ← isAt .openParen then
        let args ← argumentList (expression env)
        check (Operand.construct t args start.pos)
      else
        skip .dot .dotOrOpenParenExpected
        memberAccess expression env t none) := by
    refine fun t => .bind (.isAt _) fun _ => .ite (fun _ => ?_) fun _ => ?_
    · exact (argumentList_explained (he env)).bind fun _ =>
        .check seen Operand.construct_refusedAt
    · exact .bind (.skip _ nofun) fun _ => memberAccess_explained he t none
  exact .ite (fun _ => form.bind used) fun _ => .bind (.pure _) used

theorem symbol_explained (he : b.ExplainsPart expression) (x : External) :
    b.Explains (symbol expression env x) := by
  refine .token fun t seen => ?_
  cases x with
  | symbols table => exact .fail_bind (by simp)
  | value | expr =>
    refine .bind (.pure _) fun e => .bind .next fun _ => ?_
    split
    · refine .bind (.isAt _) fun _ => .ite (fun _ => ?_) fun _ => .pure _
      exact (argumentList_explained (he env)).bind fun _ => .check seen Operand.invoke_refusedAt
    · exact .pure _

theorem named_explained (he : b.ExplainsPart expression) : b.Explains (named expression env) := by
  have word : ∀ o : Operand, b.Explains (do next; return o : Reader _) :=
    fun o => .bind .next fun _ => .pure o
  refine .token fun t _ => .ite (fun _ => word _) fun _ => .ite (fun _ => word _) fun _ =>
    .ite (fun _ => word _) fun _ => .ite (fun _ => ?_) fun _ => .ite (fun _ => iif_explained he)
    fun _ => .ite (fun _ => projection_explained he) fun _ => ?_
  · split
    · exact word _
    · exact .fail nofun
  · split
    · exact typeAccess_explained he _
    · exact symbol_explained he _
    · exact memberAccess_explained he _ _
    · exact .fail nofun

theorem primary_explained (he : b.ExplainsPart expression) :
    b.Explains (primary expression env) := by
  have literal : ∀ x : Except Diagnostic Operand, b.Explains (check x) →
      b.Explains (literal x) :=
    fun x h => h.bind fun _ => .bind .next fun _ => .pure _
  have start : b.Explains (primaryStart expression env) := by
    refine .token fun t seen => ?_
    split
    · exact named_explained he
    · exact literal _ (.check seen Operand.ofQuoted_refusedAt)
    · exact literal _ (.check seen Operand.ofInteger_refusedAt)
    · rename_i real
      exact literal _ (.refuses fun e refused => b.allowed_real t e seen real refused)
    · exact parenthesized_explained he
    · exact .fail nofun
  exact start.bind fun o => .bind .remaining fun n => postfixesUpTo_explained he n o

theorem unaryOf_explained (ho : b.ExplainsPart operand) (he : b.ExplainsPart expression) :
    b.ExplainsPart (unaryOf operand expression) := by
  refine fun env => .token fun t seen => ?_
  split
  · exact primary_explained he
  · refine .nextToken fun number written => .ite (fun folded => ?_) fun _ => ?_
    · have signed := b.seen_signed t number seen folded.1 written
      exact .bind (.retoken signed) fun _ => primary_explained he
    · exact (ho env).bind fun _ => .check seen Operand.unary_refusedAt

theorem joinUpTo_explained {r : Reader Operand} (h : b.Explains r) (level : Precedence) (n : Nat)
    (left : Operand) : b.Explains (joinUpTo level r n left) := by
  induction n generalizing left with
  | zero => exact .pure left
  | succ n ih =>
      refine .token fun t seen => .ite (fun _ => ?_) fun _ => .pure left
      exact .bind .next fun _ => h.bind fun _ =>
        .bind (.check seen Operand.binary_refusedAt) ih

theorem joined_explained {r : Reader Operand} (h : b.Explains r) (level : Precedence) :
    b.Explains (joined level r) :=
  h.bind fun left => .bind .remaining fun n => joinUpTo_explained h level n left

theorem expressionOf_explained (ho : b.ExplainsPart operand) (he : b.ExplainsPart expression) :
    b.ExplainsPart (expressionOf operand expression) := by
  intro env
  have test : b.Explains (binaryOf (operand env)) :=
    joined_explained (joined_explained (joined_explained (joined_explained
      (joined_explained (ho env) _) _) _) _) _
  refine .token fun start seen => test.bind fun o => .bind (.isAt _) fun _ =>
    .ite (fun _ => ?_) fun _ => .pure o
  exact .bind .next fun _ => (he env).bind fun _ =>
    .bind (.skip _ nofun) fun _ => (he env).bind fun _ =>
    .check seen Operand.conditional_refusedAt

/-- However many levels are left, errors belong to tokens. -/
theorem levels_explained (n : Nat) :
    b.ExplainsPart (expressionAt n) ∧ b.ExplainsPart (operandAt n) := by
  induction n with
  | zero => exact ⟨tooDeep_explained, unaryOf_explained tooDeep_explained tooDeep_explained⟩
  | succ n ih =>
      have he : b.ExplainsPart (expressionOf (operandAt n) (expressionAt n)) :=
        expressionOf_explained ih.2 ih.1
      exact ⟨he, unaryOf_explained ih.2 he⟩

theorem wholeExpression_explained (resultTy : Option Ty) (env : Env) :
    b.Explains (wholeExpression resultTy env) := by
  have rest : ∀ e : Expr, b.Explains (do expect .endOfText .syntaxError; return e) :=
    fun e => .bind (.expect _ nofun) fun _ => .pure e
  refine .token fun start seen => ((levels_explained _).1 env).bind fun o => ?_
  cases resultTy with
  | none => exact .bind (.pure _) rest
  | some t =>
      simp only
      split
      · exact .bind (.pure _) rest
      · exact .bind (.failAt seen nofun) rest

theorem wholeOrdering_explained (env : Env) : b.Explains (wholeOrdering env) := by
  have direction : b.Explains isAscending := by
    refine .token fun _ _ => .ite (fun _ => ?_) fun _ => .ite (fun _ => ?_) fun _ => .pure _
    all_goals exact .bind .next fun _ => .pure _
  have key : b.Explains (orderingKey env) :=
    ((levels_explained _).1 env).bind fun _ => direction.bind fun _ => .pure _
  exact .bind (.items key) fun _ => .bind (.expect _ nofun) fun _ => .pure _

/-! ## Whole texts -/

/-- A host is refused for a name that it puts twice, before any text is read. -/
def IsTwice (e : Diagnostic) : Prop := ∃ name, e = ⟨.duplicateIdentifier name, 0⟩

section Host

variable {α β : Type} {env : Env} {e : Diagnostic}

/-- What is done in two steps is refused at one of them. -/
theorem refused_of_bind {x : Except Diagnostic α} {f : α → Except Diagnostic β}
    (h : x >>= f = .error e) : x = .error e ∨ ∃ a, f a = .error e := by
  cases x with
  | ok a => exact .inr ⟨a, h⟩
  | error d =>
      cases h
      exact .inl rfl

theorem Env.define_refused {name : String} {x : External} (h : env.define name x = .error e) :
    IsTwice e := by
  unfold define at h
  split at h
  · cases h
  · cases h
    exact ⟨name, rfl⟩

theorem Env.defineParams_refused {params : List Parameter}
    (h : env.defineParams params = .error e) : IsTwice e := by
  induction params generalizing env with
  | nil => cases h
  | cons p params ih =>
      rw [defineParams] at h
      split at h
      · exact ih h
      · rcases refused_of_bind h with twice | ⟨env', later⟩
        · exact define_refused twice
        · exact ih later

theorem Env.defineExternals_refused {values : List External} {i : Nat}
    (h : env.defineExternals i values = .error e) : IsTwice e := by
  fun_induction defineExternals env i values with
  | case1 => cases h
  | case2 => cases h
  | case3 env i x xs _ ih =>
      rcases refused_of_bind h with twice | ⟨env', later⟩
      · exact define_refused twice
      · exact ih env' later

theorem Env.ofHost_refused {params : List Parameter} {values : List External} {maxDepth : Nat}
    (h : Env.ofHost params values maxDepth = .error e) : IsTwice e := by
  rcases refused_of_bind h with twice | ⟨env, later⟩
  · exact defineParams_refused twice
  · exact defineExternals_refused later

end Host

/-- The tokens of the text are as they are known to be, from before the first one on. -/
def Blame.SoundText (b : Blame) (text : String) : Prop :=
  ∀ cache, b.Sound ⟨Token.atEnd 0, Token.scan text, cache⟩

/-- An error at which the reading of a text ends is accounted for. -/
theorem read_explained {α : Type} {whole : Env → Reader α} (h : ∀ env, b.Explains (whole env))
    {c : Context} {text : String} (sound : b.SoundText text) {e : Diagnostic}
    (refused : (read whole c text).1 = .error e) : b.allowed e := by
  unfold read at refused
  split at refused
  · rename_i d twice
    cases refused
    obtain ⟨name, rfl⟩ := Env.ofHost_refused twice
    exact b.allowed_at _ _ (sound c.cache).token nofun
  · rename_i env _
    have reads : b.Explains (do next; whole env) := .bind .next fun _ => h env
    have outcome := reads _ (sound c.cache)
    dsimp only at refused
    split at refused
    · cases refused
    · rename_i stopped
      cases refused
      rw [stopped] at outcome
      exact outcome

end TypedExpr.Source
