import TypedExpr.Expr.Text
import TypedExpr.Proofs.Climbing
import TypedExpr.Proofs.NestedOperands
import TypedExpr.Proofs.Closure

/-! # How deep a text nests

Each level of the grammar adds a fixed number of levels to the tree: one for each precedence of
operators, one for a choice, and one for arguments. So the nesting of a tree is limited by the
number of levels that a text may have, while its chains are as long as the text.
-/

namespace TypedExpr.Source

/-- All that names bring into an expression are constants and parameters. -/
def Env.Plain (env : Env) : Prop := env.Means fun x => ∀ e, x = .expr e → ∃ p, e = .parameter p

theorem Env.Plain.within {env : Env} (h : env.Plain) (element : Ty) : (env.within element).Plain :=
  ⟨h.symbols, h.externals⟩

/-- The operand is nested so deep at most. -/
def Within (k : Nat) (o : Operand) : Prop := o.expr.nesting ≤ k

/-- Under plain names a part makes operands that are nested so deep at most. -/
def Part.Within (k : Nat) (part : Part) : Prop :=
  ∀ env, env.Plain → (part env).Yields (Source.Within k)

open Reader

variable {k : Nat} {expression operand : Part} {env : Env}

theorem Within.succ {o : Operand} (h : Within k o) : Within (k + 1) o := Nat.le_succ_of_le h

theorem within_constant (v : Value) (t : Ty) : Within (k + 1) (.plain (.constant v t)) := by
  simp [Within, Operand.plain]

theorem within_parameter (p : Parameter) : Within (k + 1) (.plain (.parameter p)) := by
  simp [Within, Operand.plain]

/-! ## Primary expressions -/

theorem memberAccess_within {t : Ty} {target : Option Operand} (he : Part.Within k expression)
    (henv : env.Plain) (ht : ∀ s ∈ target, Within (k + 1) s) :
    (memberAccess expression env t target).Yields (Within (k + 1)) := by
  refine .after fun pos => .after fun name => .after fun _ => .after fun called => .ite ?_ ?_
  · intro _
    exact .check fun o => Operand.property_nesting ht
  · intro _
    split
    · rename_i source element _
      exact (argumentList_yields (he _ (henv.within element))).bind fun args hargs =>
        .check fun o => Operand.aggregate_nesting (ht source rfl) hargs
    · exact (argumentList_yields (he env henv)).bind fun args hargs =>
        .check fun o => Operand.method_nesting ht hargs

theorem elementAccess_within {target : Operand} (he : Part.Within k expression)
    (henv : env.Plain) (ht : Within (k + 1) target) :
    (elementAccess expression env target).Yields (Within (k + 1)) :=
  .after fun _ => .after fun _ => (items_yields (he env henv)).bind fun _ hargs =>
    .after fun _ => .check fun _ => Operand.index_nesting ht hargs

theorem postfixesUpTo_within (he : Part.Within k expression) (henv : env.Plain) (n : Nat) :
    ∀ {o}, Within (k + 1) o → (postfixesUpTo expression env n o).Yields (Within (k + 1)) := by
  induction n with
  | zero => exact fun h => .pure h
  | succ n ih =>
      intro o h
      refine .after fun dot => .ite (fun _ => .after fun _ => ?_) fun _ => ?_
      · exact (memberAccess_within he henv (by simpa using h)).bind fun _ => ih
      · refine .after fun bracket => .ite (fun _ => ?_) fun _ => .pure h
        exact (elementAccess_within he henv h).bind fun _ => ih

theorem iif_within (he : Part.Within k expression) (henv : env.Plain) :
    (iif expression env).Yields (Within (k + 1)) := by
  refine .after fun _ => .after fun _ =>
    (argumentList_yields (he env henv)).bind fun args hargs => ?_
  split
  · exact .check fun o =>
      Operand.conditional_nesting (hargs _ (by simp)) (hargs _ (by simp)) (hargs _ (by simp))
  · exact .failAt _ _

theorem projectionItem_within (he : Part.Within k expression) (henv : env.Plain) :
    (projectionItem expression env).Yields fun f => f.2.nesting ≤ k := by
  refine .after fun _ => (he env henv).bind fun o h => .after fun _ =>
    .ite (fun _ => ?_) fun _ => ?_
  · exact .after fun _ => .after fun _ => .after fun _ => .pure h
  · split
    · exact .pure h
    · exact .failAt _ _

theorem projection_within (he : Part.Within k expression) (henv : env.Plain) :
    (projection expression env).Yields (Within (k + 1)) := by
  refine .after fun _ => .after fun _ => .after fun _ =>
    (items_yields (projectionItem_within he henv)).bind fun fields hfields => .after fun _ =>
    .after fun r => .pure ?_
  rw [Within, Operand.plain, Expr.nesting_le]
  refine ⟨by simp [Expr.first?], fun e he => ?_⟩
  obtain ⟨f, hf, rfl⟩ := List.mem_map.mp he
  exact hfields f hf

theorem typeAccess_within (he : Part.Within k expression) (henv : env.Plain) (p : Predefined) :
    (typeAccess expression env p).Yields (Within (k + 1)) := by
  refine .after fun start => .after fun _ => .after fun marked => ?_
  refine .ite (fun _ => .after fun t => ?_) fun _ => .after fun t => ?_
  all_goals
    refine .after fun _ => .ite (fun _ => ?_) fun _ => .after fun _ => ?_
    · exact (argumentList_yields (he env henv)).bind fun _ hargs =>
        .check fun _ => Operand.construct_nesting hargs
    · exact memberAccess_within he henv (by simp)

theorem symbol_within {name : String} {x : External} (henv : env.Plain)
    (hx : env.symbol? name = some x) : (symbol expression env x).Yields (Within (k + 1)) := by
  refine .after fun t => ?_
  cases x with
  | value v =>
      refine .bind (P := fun e => e = .constant v v.typeOf) (.pure rfl) fun e same => ?_
      subst same
      exact .after fun _ => .pure (within_constant _ _)
  | symbols table => exact .bind (.fail (P := fun _ => False) _) fun _ h => h.elim
  | expr e =>
      obtain ⟨p, rfl⟩ := henv.symbol? hx e rfl
      refine .bind (P := fun e => e = .parameter p) (.pure rfl) fun e same => ?_
      subst same
      exact .after fun _ => .pure (within_parameter p)

theorem named_within (he : Part.Within k expression) (henv : env.Plain) :
    (named expression env).Yields (Within (k + 1)) := by
  refine .after fun t => .ite (fun _ => .after fun _ => .pure (within_constant _ _)) fun _ => ?_
  refine .ite (fun _ => .after fun _ => .pure (within_constant _ _)) fun _ => ?_
  refine .ite (fun _ => .after fun _ => .pure (within_constant _ _)) fun _ =>
    .ite (fun _ => ?_) fun _ => ?_
  · split
    · exact .after fun _ => .pure (within_parameter _)
    · exact .fail _
  refine .ite (fun _ => iif_within he henv) fun _ =>
    .ite (fun _ => projection_within he henv) fun _ => ?_
  split
  · exact typeAccess_within he henv _
  · exact symbol_within henv ‹_›
  · exact memberAccess_within he henv (by simpa using within_parameter _)
  · exact .fail _

theorem literal_within {v : Value} {text : String} : Within (k + 1) (.literal v text) := by
  simp [Within, Operand.literal]

/-- Literals are constants, whatever they are written like. -/
theorem primaryStart_within (he : Part.Within k expression) (henv : env.Plain) :
    (primaryStart expression env).Yields (Within (k + 1)) := by
  have literal : ∀ {x : Except Diagnostic Operand}, (∀ o, x = .ok o → Within (k + 1) o) →
      (literal x).Yields (Within (k + 1)) :=
    fun h => (Yields.check h).bind fun _ ho => .after fun _ => .pure ho
  refine .after fun t => ?_
  split
  · exact named_within he henv
  · refine literal fun o h => ?_
    simp only [Operand.ofQuoted] at h
    repeat' split at h
    all_goals
      cases h
      try exact literal_within
  · refine literal fun o h => ?_
    simp only [Operand.ofInteger] at h
    split at h
    all_goals
      cases h
      try exact literal_within
  · refine literal fun o h => ?_
    simp only [Operand.ofReal] at h
    split at h
    all_goals
      cases h
      try exact literal_within
  · exact .after fun _ => (he env henv).bind fun _ h => .after fun _ => .pure h.succ
  · exact .fail _

theorem primary_within (he : Part.Within k expression) (henv : env.Plain) :
    (primary expression env).Yields (Within (k + 1)) :=
  (primaryStart_within he henv).bind fun _ h => .after fun n => postfixesUpTo_within he henv n h

/-! ## Levels -/

theorem Part.Within.mono {part : Part} {m : Nat} (h : Part.Within k part) (le : k ≤ m) :
    Part.Within m part :=
  fun env henv => (h env henv).imp fun _ ho => Nat.le_trans ho le

theorem unaryOf_within (ho : Part.Within k operand) (he : Part.Within k expression) :
    Part.Within (k + 1) (unaryOf operand expression) := by
  intro env henv
  refine .after fun t => ?_
  split
  · exact primary_within he henv
  · refine .after fun _ => .after fun number => .ite (fun _ => ?_) fun _ => ?_
    · exact .after fun _ => primary_within he henv
    · exact (ho env henv).bind fun _ h => .check fun _ => Operand.unary_nesting h

theorem joined_within {r : Reader Operand} (h : r.Yields (Within k)) (level : Precedence) :
    (joined level r).Yields (Within (k + 1)) :=
  joined_yields h Within.succ Operand.binary_nesting level

/-- Five precedences and a choice. -/
theorem expressionOf_within (ho : Part.Within k operand) (he : Part.Within (k + 5) expression) :
    Part.Within (k + 6) (expressionOf operand expression) := by
  intro env henv
  have test : (binaryOf (operand env)).Yields (Within (k + 5)) :=
    joined_within (joined_within (joined_within (joined_within (joined_within (ho env henv) _) _)
      _) _) _
  refine .after fun _ => test.bind fun o h => .after fun _ =>
    .ite (fun _ => ?_) fun _ => .pure h.succ
  refine .after fun _ => (he env henv).bind fun t ht => .after fun _ =>
    (he env henv).bind fun f hf => ?_
  exact .check fun _ => Operand.conditional_nesting h ht hf

/-- Each level that is left allows seven levels of the tree. -/
theorem levels_within (n : Nat) :
    Part.Within (7 * n) (expressionAt n) ∧ Part.Within (7 * n + 1) (operandAt n) := by
  induction n with
  | zero =>
      have nothing : Part.Within 0 tooDeep := fun _ _ => .fail _
      exact ⟨nothing, unaryOf_within nothing nothing⟩
  | succ n ih =>
      obtain ⟨expression, operand⟩ := ih
      have next : Part.Within (7 * n + 1 + 6) (expressionAt (n + 1)) :=
        expressionOf_within operand (expression.mono (by omega))
      exact ⟨next, unaryOf_within (operand.mono (by omega)) next⟩

theorem wholeExpression_within (resultTy : Option Ty) (henv : env.Plain) :
    (wholeExpression resultTy env).Yields fun e => e.nesting ≤ 7 * env.maxDepth := by
  refine .after fun _ => ((levels_within _).1 env henv).bind fun o h => ?_
  have rest : ∀ e : Expr, e.nesting ≤ 7 * env.maxDepth →
      (do expect .endOfText .syntaxError; return e : Reader Expr).Yields
        fun e => e.nesting ≤ 7 * env.maxDepth :=
    fun e he => .after fun _ => .pure he
  cases resultTy with
  | none => exact .bind (.pure h) rest
  | some t =>
      simp only
      split
      · rename_i promoted
        exact .bind (.pure (Nat.le_trans (Operand.promote?_exact promoted).1.nesting_le h)) rest
      · exact .bind (.failAt (P := fun _ => False) _ _) fun _ h => h.elim

/-! ## Whole texts -/

theorem Env.defineParams_maxDepth {env' : Env} {params : List Parameter}
    (h : env.defineParams params = .ok env') : env'.maxDepth = env.maxDepth := by
  induction params generalizing env with
  | nil => cases h; rfl
  | cons p ps ih =>
      simp only [defineParams] at h
      split at h
      · exact ih h
      · cases named : env.define p.name (.expr (.parameter p)) with
        | error e => rw [named] at h; cases h
        | ok mid =>
            rw [named] at h
            rw [ih h, define_ok named]

theorem Env.defineExternals_maxDepth {env' : Env} {values : List External} {i : Nat}
    (h : env.defineExternals i values = .ok env') : env'.maxDepth = env.maxDepth := by
  induction values generalizing env i with
  | nil => cases h; rfl
  | cons x xs ih =>
      rw [defineExternals.eq_def] at h
      split at h
      · contradiction
      · cases h
        rfl
      · rename_i y ys _ same
        cases same
        cases named : env.define ("@" ++ toString i) x with
        | error e => rw [named] at h; cases h
        | ok mid =>
            rw [named] at h
            rw [ih h, define_ok named]

theorem Env.ofHost_maxDepth {params : List Parameter} {values : List External} {maxDepth : Nat}
    (h : ofHost params values maxDepth = .ok env) : env.maxDepth = maxDepth := by
  simp only [ofHost] at h
  generalize hstart : (⟨CaseMap.empty, [], receiverOf params, _, maxDepth⟩ : Env) = start at h
  cases hmid : start.defineParams params with
  | error e => rw [hmid] at h; cases h
  | ok mid =>
      rw [hmid] at h
      rw [defineExternals_maxDepth h, defineParams_maxDepth hmid, ← hstart]

/-- The nesting of what is read is limited, where only values are given besides parameters, and its
height by the nesting and the longest chain. -/
theorem readExpr_nesting {c : Context} {resultTy : Option Ty} {text : String} {e : Expr}
    {cache : RecordCache} (values : ∀ e', ¬ Given c.values (.expr e'))
    (h : readExpr c resultTy text = (.ok e, cache)) :
    e.nesting ≤ 7 * c.maxDepth ∧ e.height ≤ 7 * c.maxDepth * e.chain := by
  have nesting : e.nesting ≤ 7 * c.maxDepth := by
    simp only [readExpr, read] at h
    split at h
    · cases h
    · rename_i env henv
      obtain ⟨means, -, -⟩ := Env.ofHost_ok
        (S := fun x => ∀ e, x = .expr e → ∃ p, e = .parameter p)
        (fun p _ e same => ⟨p, by cases same; rfl⟩)
        (fun x hx e same => absurd (same ▸ .value hx) (values e))
        (fun table ht x hx e same => absurd (same ▸ .entry ht hx) (values e)) henv
      split at h
      · rename_i e' s hread
        cases h
        rw [← Env.ofHost_maxDepth henv]
        exact Yields.after (fun _ => wholeExpression_within resultTy means) _ _ _ hread
      · cases h
  refine ⟨nesting, ?_⟩
  calc e.height ≤ e.nesting * e.chain := e.height_le_nesting_mul_chain
    _ ≤ 7 * c.maxDepth * e.chain := Nat.mul_le_mul_right _ nesting

theorem readExpr_nesting_sum :
    let c : Context := ⟨[], [], 1, .empty none⟩
    ∃ e cache, readExpr c none "1+1+1" = (.ok e, cache) ∧ e.toText = "((1 + 1) + 1)" ∧
      e.nesting ≤ 7 * 1 ∧ e.height ≤ 7 * 1 * e.chain := by
  intro c
  have shows : (readExpr c none "1+1+1").1.toOption.map Expr.toText = some "((1 + 1) + 1)" := by
    decide +kernel
  obtain ⟨e, cache, read, shown⟩ := ok_of_map shows
  exact ⟨e, cache, read, shown, readExpr_nesting (fun _ => not_given_nil) read⟩

/-! ### Sums

No level is needed for one more operand behind the others, so that a text of any length can be
read on one level.
-/

private def one : Expr := .constant (.int32 1) .int32

/-- So many ones added to a first one. -/
def ones : Nat → Expr
  | 0 => one
  | n + 1 => .binary .add (ones n) one .int32

def onesWords : Nat → List String
  | 0 => ["1"]
  | n + 1 => onesWords n ++ ["+", "1"]

private theorem one_elementary : Elementary [] one .int32 := .literal (by decide)

private theorem one_spelled (level : Level) : Spells level one ["1"] :=
  Spells.ofOperand (.literal (k := 1) rfl rfl) level

theorem ones_elementary (n : Nat) : Elementary [] (ones n) .int32 := by
  induction n with
  | zero => exact one_elementary
  | succ n ih => exact .binary (.arithmetic rfl) ih one_elementary

theorem ones_spelled (n : Nat) : Spells (.joined .additive) (ones n) (onesWords n) := by
  induction n with
  | zero => exact one_spelled _
  | succ n ih => exact @Spells.binary .add _ _ _ "+" _ _ (.inl (by decide)) ih (one_spelled _)

theorem lt_height_ones (n : Nat) : n < (ones n).height := by
  induction n with
  | zero =>
      rw [Expr.height]
      omega
  | succ n ih =>
      by_contra! low
      have below := Expr.height_le.mp low (ones n) (by simp [ones, Expr.parts, Expr.first?])
      omega

/-- The loop over sums takes all the ones without a further level. -/
theorem ones_leads (env : Env) (n : Nat) :
    Leads .additive (levelAt 0 env (.joined .multiplicative)) (ones n) .int32 (onesWords n) := by
  have operand : Parses (levelAt 0 env (.joined .multiplicative)) (.joined .multiplicative) one
      .int32 ["1"] :=
    ((one_spelled (.joined .multiplicative)).reads (by simp [Env.Knows]) one_elementary 0
      (by decide)).parses
  induction n with
  | zero => exact .first operand
  | succ n ih =>
      exact @Leads.binary _ _ .add "+" _ _ _ _ _ (.inl (by decide)) (.arithmetic rfl) ih operand

theorem ones_parses (env : Env) (n : Nat) :
    Parses (expressionAt 1 env) .conditional (ones n) .int32 (onesWords n) := by
  have sum := (ones_leads env n).parses
  exact expressionOf_joined (Leads.first (Leads.first (Leads.first sum).parses).parses).parses

/-- On one level a sum of any length is read. -/
theorem readExpr_ones (n : Nat) :
    ∃ text, readExpr ⟨[], [], 1, .empty none⟩ none text = (.ok (ones n), .empty none) := by
  obtain ⟨text, layout⟩ := Layout.exists (onesWords n)
  rw [← String.toList_ofList (l := text)] at layout
  refine ⟨String.ofList text, ?_⟩
  let env : Env := ⟨CaseMap.empty, [], none, 0, 1⟩
  let start : State := ⟨Token.atEnd 0, Token.scan (String.ofList text), .empty none⟩
  have host : Env.ofHost [] [] 1 = .ok env := rfl
  have reads : Reaches (do next; wholeExpression none env) start fun e s =>
      e = ones n ∧ s.cache = .empty none := by
    have covers := (ones_spelled n).loosen.covers (ones_elementary n) layout
    refine (next_covers covers).bind fun _ s faces => .token ?_
    rw [← List.append_nil (onesWords n)] at faces
    refine (ones_parses env n _ _ _ faces Level.stops_nil).bind fun o s ho => ?_
    exact .expect ho.faces.ahead (.pure ⟨ho.expr, ho.faces.cache⟩)
  obtain ⟨_, s, done, rfl, cached⟩ := reads
  simp only [readExpr, read, host]
  rw [done]
  simp only [cached]

/-- The number of levels alone is no limit for the height. -/
theorem height_unlimited :
    ¬ ∃ limit : Nat → Nat, ∀ (c : Context) (resultTy : Option Ty) (text : String) (e : Expr)
      (cache : RecordCache), (∀ e', ¬ Given c.values (.expr e')) →
        readExpr c resultTy text = (.ok e, cache) → e.height ≤ limit c.maxDepth := by
  rintro ⟨limit, limited⟩
  obtain ⟨text, read⟩ := readExpr_ones (limit 1)
  have low := limited _ none text _ _ (fun _ => not_given_nil) read
  exact Nat.lt_irrefl _ (Nat.lt_of_lt_of_le (lt_height_ones (limit 1)) low)

end TypedExpr.Source
