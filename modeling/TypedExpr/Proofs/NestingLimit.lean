import TypedExpr.Proofs.Nesting

/-! # The limit only rejects

With more levels a reader goes the same way as with fewer, unless the fewer have stopped it. Each
way to put readers together has one lemma, so that two readings of a part of the grammar are
compared in the order in which it is written.
-/

namespace TypedExpr.Source

open Reader

/-- The error of an expression that is nested too deep. -/
def TooDeep (e : Diagnostic) : Prop := ∃ limit, e.problem = .nestingTooDeep limit

namespace Reader

variable {α β : Type}

/-- The second reader goes the way of the first, which can also be stopped by the limit. -/
def Deepens (r r' : Reader α) : Prop :=
  ∀ s, r' s = r s ∨ ∃ e s', r s = .error e s' ∧ TooDeep e

namespace Deepens

theorem refl (r : Reader α) : Deepens r r := fun _ => .inl rfl

theorem bind {r r' : Reader α} {f f' : α → Reader β} (hr : Deepens r r')
    (hf : ∀ a, Deepens (f a) (f' a)) : Deepens (r >>= f) (r' >>= f') := by
  intro s
  simp only [Bind.bind, EStateM.bind]
  rcases hr s with same | ⟨e, s', stopped, deep⟩
  · rw [same]
    cases r s with
    | ok a s' => exact hf a s'
    | error e s' => exact .inl rfl
  · rw [stopped]
    exact .inr ⟨e, s', rfl, deep⟩

/-- The first part is the same. -/
theorem andThen {r : Reader α} {f f' : α → Reader β} (hf : ∀ a, Deepens (f a) (f' a)) :
    Deepens (r >>= f) (r >>= f') := bind (refl r) hf

/-- What follows is the same. -/
theorem before {r r' : Reader α} {f : α → Reader β} (hr : Deepens r r') :
    Deepens (r >>= f) (r' >>= f) := bind hr fun a => refl (f a)

theorem ite {c : Prop} [Decidable c] {r s r' s' : Reader α} (hr : Deepens r r')
    (hs : Deepens s s') : Deepens (if c then r else s) (if c then r' else s') := by
  split
  · exact hr
  · exact hs

end Deepens

theorem items_deepens {item item' : Reader α} (h : Deepens item item') :
    Deepens (items item) (items item') := by
  refine .andThen fun n => ?_
  induction n with
  | zero => exact h.before
  | succ n ih =>
      exact h.bind fun _ => .andThen fun _ => .ite (.andThen fun _ => ih.before) (.refl _)

end Reader

/-- The same meanings of names under another limit. -/
def Env.limited (env : Env) (d : Nat) : Env := { env with maxDepth := d }

/-- Under the limit `d` the second part reads on where the first one stops. -/
def Part.Deepens (d : Nat) (part part' : Part) : Prop :=
  ∀ env : Env, Reader.Deepens (part env) (part' (env.limited d))

variable {d : Nat} {expression expression' operand operand' : Part}

theorem tooDeep_deepens (part : Part) : Part.Deepens d tooDeep part :=
  fun env s => .inr ⟨⟨.nestingTooDeep env.maxDepth, s.token.pos⟩, s, rfl, _, rfl⟩

theorem argumentList_deepens {r r' : Reader Operand} (h : Reader.Deepens r r') :
    Reader.Deepens (argumentList r) (argumentList r') :=
  .andThen fun _ => .andThen fun _ => .ite (.refl _) (items_deepens h).before

theorem memberAccess_deepens (he : Part.Deepens d expression expression') (env : Env) (t : Ty)
    (target : Option Operand) :
    Reader.Deepens (memberAccess expression env t target)
      (memberAccess expression' (env.limited d) t target) := by
  refine .andThen fun _ => .andThen fun _ => .andThen fun _ => .andThen fun _ => .ite (.refl _) ?_
  split
  · exact (argumentList_deepens (he _)).before
  · exact (argumentList_deepens (he env)).before

theorem elementAccess_deepens (he : Part.Deepens d expression expression') (env : Env)
    (target : Operand) :
    Reader.Deepens (elementAccess expression env target)
      (elementAccess expression' (env.limited d) target) :=
  .andThen fun _ => .andThen fun _ => (items_deepens (he env)).before

theorem postfixesUpTo_deepens (he : Part.Deepens d expression expression') (env : Env) (n : Nat)
    (o : Operand) :
    Reader.Deepens (postfixesUpTo expression env n o)
      (postfixesUpTo expression' (env.limited d) n o) := by
  induction n generalizing o with
  | zero => exact .refl _
  | succ n ih =>
      refine .andThen fun _ => .ite ?_ (.andThen fun _ => .ite ?_ (.refl _))
      · exact .andThen fun _ => (memberAccess_deepens he env _ _).bind ih
      · exact (elementAccess_deepens he env o).bind ih

theorem parenthesized_deepens (he : Part.Deepens d expression expression') (env : Env) :
    Reader.Deepens (parenthesized expression env) (parenthesized expression' (env.limited d)) :=
  .andThen fun _ => (he env).before

theorem iif_deepens (he : Part.Deepens d expression expression') (env : Env) :
    Reader.Deepens (iif expression env) (iif expression' (env.limited d)) :=
  .andThen fun _ => .andThen fun _ => (argumentList_deepens (he env)).before

theorem projection_deepens (he : Part.Deepens d expression expression') (env : Env) :
    Reader.Deepens (projection expression env) (projection expression' (env.limited d)) := by
  have item : Reader.Deepens (projectionItem expression env)
      (projectionItem expression' (env.limited d)) := .andThen fun _ => (he env).before
  exact .andThen fun _ => .andThen fun _ => .andThen fun _ => (items_deepens item).before

theorem typeAccess_deepens (he : Part.Deepens d expression expression') (env : Env)
    (p : Predefined) :
    Reader.Deepens (typeAccess expression env p) (typeAccess expression' (env.limited d) p) := by
  refine .andThen fun _ => .andThen fun _ => .andThen fun _ => ?_
  refine .ite (.andThen fun t => ?_) (.andThen fun t => ?_)
  all_goals
    exact .andThen fun _ => .ite (argumentList_deepens (he env)).before
      (.andThen fun _ => memberAccess_deepens he env t none)

theorem symbol_deepens (he : Part.Deepens d expression expression') (env : Env) (x : External) :
    Reader.Deepens (symbol expression env x) (symbol expression' (env.limited d) x) := by
  refine .andThen fun t => ?_
  cases x with
  | symbols table => exact .refl _
  | value | expr =>
    refine .andThen fun e => .andThen fun _ => ?_
    split
    · exact .andThen fun _ => .ite (argumentList_deepens (he env)).before (.refl _)
    · exact .refl _

theorem named_deepens (he : Part.Deepens d expression expression') (env : Env) :
    Reader.Deepens (named expression env) (named expression' (env.limited d)) := by
  refine .andThen fun t => .ite (.refl _) (.ite (.refl _) (.ite (.refl _) (.ite (.refl _) ?_)))
  refine .ite (iif_deepens he env) (.ite (projection_deepens he env) ?_)
  have names : (env.limited d).symbol? t.text = env.symbol? t.text := rfl
  have receiver : (env.limited d).receiver = env.receiver := rfl
  rw [names, receiver]
  split
  · exact typeAccess_deepens he env _
  · exact symbol_deepens he env _
  · exact memberAccess_deepens he env _ _
  · exact .refl _

theorem primary_deepens (he : Part.Deepens d expression expression') (env : Env) :
    Reader.Deepens (primary expression env) (primary expression' (env.limited d)) := by
  refine .bind (.andThen fun t => ?_) fun o => .andThen fun n => postfixesUpTo_deepens he env n o
  split
  · exact named_deepens he env
  · exact .refl _
  · exact .refl _
  · exact .refl _
  · exact parenthesized_deepens he env
  · exact .refl _

theorem unaryOf_deepens (ho : Part.Deepens d operand operand')
    (he : Part.Deepens d expression expression') :
    Part.Deepens d (unaryOf operand expression) (unaryOf operand' expression') := by
  refine fun env => .andThen fun t => ?_
  cases t.unaryOp? with
  | none => exact primary_deepens he env
  | some op =>
    exact .andThen fun _ => .andThen fun _ =>
      .ite (.andThen fun _ => primary_deepens he env) (ho env).before

theorem joinUpTo_deepens {r r' : Reader Operand} (h : Reader.Deepens r r') (level : Precedence)
    (n : Nat) (left : Operand) :
    Reader.Deepens (joinUpTo level r n left) (joinUpTo level r' n left) := by
  induction n generalizing left with
  | zero => exact .refl _
  | succ n ih =>
      exact .andThen fun _ => .ite (.andThen fun _ => h.bind fun _ => .andThen ih) (.refl _)

theorem joined_deepens {r r' : Reader Operand} (h : Reader.Deepens r r') (level : Precedence) :
    Reader.Deepens (joined level r) (joined level r') :=
  h.bind fun left => .andThen fun n => joinUpTo_deepens h level n left

theorem binaryOf_deepens {r r' : Reader Operand} (h : Reader.Deepens r r') :
    Reader.Deepens (binaryOf r) (binaryOf r') :=
  joined_deepens (joined_deepens (joined_deepens (joined_deepens (joined_deepens h _) _) _) _) _

theorem expressionOf_deepens (ho : Part.Deepens d operand operand')
    (he : Part.Deepens d expression expression') :
    Part.Deepens d (expressionOf operand expression) (expressionOf operand' expression') := by
  intro env
  refine .andThen fun _ => (binaryOf_deepens (ho env)).bind fun _ => .andThen fun _ => .ite ?_ (.refl _)
  exact .andThen fun _ => (he env).bind fun _ => .andThen fun _ => (he env).before

/-- With more levels left, expressions and operands are read as with fewer. -/
theorem levels_deepen (d : Nat) {n m : Nat} (h : n ≤ m) :
    Part.Deepens d (expressionAt n) (expressionAt m) ∧
      Part.Deepens d (operandAt n) (operandAt m) := by
  induction n generalizing m with
  | zero =>
      refine ⟨tooDeep_deepens _, ?_⟩
      cases m with
      | zero => exact unaryOf_deepens (tooDeep_deepens _) (tooDeep_deepens _)
      | succ m => exact unaryOf_deepens (tooDeep_deepens _) (tooDeep_deepens _)
  | succ n ih =>
      obtain ⟨m, rfl⟩ := Nat.exists_eq_add_of_le' (Nat.lt_of_lt_of_le n.succ_pos h)
      obtain ⟨he, ho⟩ := ih (Nat.le_of_succ_le_succ h)
      have deeper := expressionOf_deepens ho he
      exact ⟨deeper, unaryOf_deepens ho deeper⟩

theorem wholeExpression_deepens (resultTy : Option Ty) {env : Env} (h : env.maxDepth ≤ d) :
    Reader.Deepens (wholeExpression resultTy env) (wholeExpression resultTy (env.limited d)) :=
  .andThen fun _ => ((levels_deepen d h).1 env).before

theorem wholeOrdering_deepens {env : Env} (h : env.maxDepth ≤ d) :
    Reader.Deepens (wholeOrdering env) (wholeOrdering (env.limited d)) := by
  have key : Reader.Deepens (orderingKey env) (orderingKey (env.limited d)) :=
    ((levels_deepen d h).1 env).before
  exact (items_deepens key).before

namespace Env

theorem define_limited (env : Env) (name : String) (x : External) :
    (env.limited d).define name x = (env.define name x).map fun env => env.limited d := by
  simp only [define, limited]
  cases env.symbols.insert? name x <;> rfl

theorem defineParams_limited (env : Env) (params : List Parameter) :
    (env.limited d).defineParams params =
      (env.defineParams params).map fun env => env.limited d := by
  induction params generalizing env with
  | nil => rfl
  | cons p ps ih =>
      simp only [defineParams]
      split
      · exact ih env
      · rw [define_limited]
        cases env.define p.name (.expr (.parameter p)) with
        | error e => rfl
        | ok env => exact ih env

theorem defineExternals_limited (env : Env) (i : Nat) (values : List External) :
    (env.limited d).defineExternals i values =
      (env.defineExternals i values).map fun env => env.limited d := by
  induction values generalizing env i with
  | nil => rfl
  | cons x xs ih =>
      rw [defineExternals.eq_def, defineExternals.eq_def env]
      split
      · contradiction
      · rfl
      · rename_i y ys _ same
        cases same
        simp only [define_limited]
        cases env.define ("@" ++ toString i) x with
        | error e => rfl
        | ok env => exact ih env (i + 1)

/-- A host gives the same meanings under every limit. -/
theorem ofHost_limited (params : List Parameter) (values : List External) (d d' : Nat) :
    ofHost params values d' = (ofHost params values d).map fun env => env.limited d' := by
  simp only [ofHost]
  generalize max (Parameter.bound params) (External.tableBound (values.map ("", ·))) = nextId
  let start : Env := ⟨CaseMap.empty, [], receiverOf params, nextId, d⟩
  change (do ((← (start.limited d').defineParams params).defineExternals 0 values)) =
    (do ((← start.defineParams params).defineExternals 0 values : Except Diagnostic Env)).map _
  rw [defineParams_limited]
  cases start.defineParams params with
  | error e => rfl
  | ok env => exact defineExternals_limited env 0 values

end Env

/-- A text is read as under a lower limit, unless that one has stopped its reading. -/
theorem read_deepens {α : Type} {whole : Env → Reader α} {c : Context} {d : Nat}
    (h : ∀ env : Env, env.maxDepth ≤ d → Reader.Deepens (whole env) (whole (env.limited d)))
    (limit : c.maxDepth ≤ d) (text : String) :
    read whole { c with maxDepth := d } text = read whole c text ∨
      ∃ e cache, read whole c text = (.error e, cache) ∧ TooDeep e := by
  simp only [read]
  rw [Env.ofHost_limited c.params c.values c.maxDepth d]
  cases host : Env.ofHost c.params c.values c.maxDepth with
  | error e => exact .inl rfl
  | ok env =>
      have deeper : Reader.Deepens (do next; whole env) (do next; whole (env.limited d)) :=
        .andThen fun _ => h env (Env.ofHost_maxDepth host ▸ limit)
      simp only [Except.map]
      rcases deeper ⟨Token.atEnd 0, Token.scan text, c.cache⟩ with same | ⟨e, s, stopped, deep⟩
      · rw [same]
        exact .inl rfl
      · rw [stopped]
        exact .inr ⟨e, s.cache, rfl, deep⟩

/-- Under a higher limit an ordering is the same, unless the lower one has stopped its reading. -/
theorem readOrdering_deepens {c : Context} {d : Nat} (limit : c.maxDepth ≤ d) (text : String) :
    readOrdering { c with maxDepth := d } text = readOrdering c text ∨
      ∃ e cache, readOrdering c text = (.error e, cache) ∧ TooDeep e :=
  read_deepens (fun _ => wholeOrdering_deepens) limit text

end TypedExpr.Source
