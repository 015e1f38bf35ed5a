import TypedExpr.Proofs.Adjoining
import TypedExpr.Proofs.NestingLimit

/-! # Expressions in parentheses and in clauses

A text that is an expression by itself is the same expression in parentheses and as the key of an
ordering. The record types that it makes are found again by every later reading.
-/

namespace TypedExpr.Source

open Token Reader

variable {c : Context} {text : String} {e : Expr} {cache later : RecordCache} {env : Env}

/-! ## Reading an expression -/

theorem wholeExpression_ok_iff {s s' : State} : wholeExpression none env s = .ok e s' ↔
    ∃ o : Operand, expressionAt env.maxDepth env s = .ok o s' ∧ s'.token.kind = .endOfText ∧
      o.expr = e := by
  let ends (o : Operand) : Reader Expr := do expect .endOfText .syntaxError; return o.expr
  have whole : wholeExpression none env s = (expressionAt env.maxDepth env >>= ends) s := rfl
  rw [whole]
  constructor
  · intro read
    obtain ⟨o, t, first, finish⟩ := exists_of_bind read
    by_cases atEnd : t.token.kind = .endOfText
    · cases (bind_expect atEnd).symm.trans finish
      exact ⟨o, first, atEnd, rfl⟩
    · cases (expect_fails atEnd).symm.trans finish
  · rintro ⟨o, first, atEnd, rfl⟩
    rw [bind_of_ok first]
    exact bind_expect atEnd

/-- At the beginning of a text. -/
def Context.start (c : Context) (text : String) : State :=
  ⟨Token.atEnd 0, Token.scan text, c.cache⟩

theorem read_ok_iff {α : Type} {whole : Env → Reader α} {a : α}
    (host : Env.ofHost c.params c.values c.maxDepth = .ok env) :
    read whole c text = (.ok a, cache) ↔
      ∃ s, (do next; whole env) (c.start text) = .ok a s ∧ s.cache = cache := by
  simp only [read, host, Context.start]
  cases (do next; whole env : Reader α) ⟨Token.atEnd 0, Token.scan text, c.cache⟩ with
  | ok b s =>
      refine ⟨fun h => ?_, ?_⟩
      · cases h
        exact ⟨s, rfl, rfl⟩
      · rintro ⟨s, ⟨⟩, rfl⟩
        rfl
  | error d s =>
      refine ⟨fun h => ?_, ?_⟩
      · cases h
      · rintro ⟨s, ⟨⟩, -⟩

/-- An expression is read where its reader gets from the first token to the end. -/
theorem readExpr_ok_iff (host : Env.ofHost c.params c.values c.maxDepth = .ok env) :
    readExpr c none text = (.ok e, cache) ↔ ∃ (o : Operand) (s : State),
      (do next; expressionAt env.maxDepth env) (c.start text) = .ok o s ∧
        s.token.kind = .endOfText ∧ o.expr = e ∧ s.cache = cache := by
  refine (read_ok_iff host).trans ?_
  cases opened : next (c.start text) with
  | error d t =>
      rw [bind_of_error opened, bind_of_error opened]
      simp
  | ok u t =>
      rw [bind_of_ok opened, bind_of_ok opened]
      simp only [wholeExpression_ok_iff]
      refine ⟨?_, ?_⟩
      · rintro ⟨s, ⟨o, reads, atEnd, same⟩, kept⟩
        exact ⟨o, s, reads, atEnd, same, kept⟩
      · rintro ⟨o, s, reads, atEnd, same, kept⟩
        exact ⟨s, ⟨o, reads, atEnd, same⟩, kept⟩

theorem exists_host (h : readExpr c none text = (.ok e, cache)) :
    ∃ env, Env.ofHost c.params c.values c.maxDepth = .ok env := by
  cases host : Env.ofHost c.params c.values c.maxDepth with
  | ok env => exact ⟨env, rfl⟩
  | error d =>
      simp only [readExpr, read, host] at h
      cases h

/-! ## In a place -/

/-- It does not matter which token is looked at before the first one. -/
theorem next_anywhere {α : Type} {r : Reader α} {t₀ : Token} {run : TokenRun} {a : α} {s : State}
    (h : (do next; r) ⟨t₀, run, cache⟩ = .ok a s) (t : Token) :
    (do next; r) ⟨t, run, cache⟩ = .ok a s := by
  cases run with
  | failed d => cases h
  | done pos => exact h
  | token u rest => exact h

/-- What is read to the end of a run is read in every place. -/
theorem expressionAt_place {n : Nat} {t₀ : Token} {run : TokenRun} {o : Operand} {s : State}
    (words : ∀ t ∈ run.tokens, t.kind ≠ .endOfText)
    (reads : (do next; expressionAt n env) ⟨t₀, run, cache⟩ = .ok o s)
    (atEnd : s.token.kind = .endOfText) :
    run.error? = none ∧ ∀ p : Place, (∀ later ∈ p.kept, later.Extends s.cache) →
      (do next; expressionAt n env) ⟨t₀, run.followedBy p.behind, p.kept.getD cache⟩ =
        .ok o ⟨p.first, p.more, p.kept.getD s.cache⟩ := by
  have follows := fun (p : Place) => (levels_local p n).1 env
  cases run with
  | failed d => cases reads
  | done pos =>
      have moved := (follows (.atEnd 0 none) _ ⟨words, fun _ => ⟨pos, rfl⟩⟩ o s reads).1
      exact absurd moved.fewer (Nat.not_succ_le_zero _)
  | token t rest =>
      have inside : t.kind ≠ .endOfText := words t (by simp [TokenRun.tokens])
      have regular : State.Regular ⟨t, rest, cache⟩ := State.regular_of_words words
      refine ⟨?_, fun p kept => ?_⟩
      · have moved := (follows (.atEnd 0 none) _ regular o s reads).1
        obtain ⟨pos, done⟩ := moved.regular.atEnd atEnd
        have clean : rest.error? = s.rest.error? := moved.error.symm
        rw [done] at clean
        exact clean
      · have here := (follows p _ regular o s reads).2 (Nat.zero_le _) kept
        rw [Place.around_inside inside, Place.around_atEnd atEnd] at here
        exact here

/-- So does a text, wherever it stands. -/
theorem readExpr_place (host : Env.ofHost c.params c.values c.maxDepth = .ok env)
    (h : readExpr c none text = (.ok e, cache)) {front : List Char} {run : TokenRun}
    (cuts : Cuts front text.toList run) :
    run.error? = none ∧ ∀ (p : Place) (t₀ : Token), (∀ later ∈ p.kept, later.Extends cache) →
      ∃ o : Operand, o.expr = e ∧ (do next; expressionAt env.maxDepth env)
        ⟨t₀, run.followedBy p.behind, p.kept.getD c.cache⟩ =
          .ok o ⟨p.first, p.more, p.kept.getD cache⟩ := by
  obtain ⟨o, s, reads, atEnd, same, rfl⟩ := (readExpr_ok_iff host).mp h
  have agree : Matching Eq ((do next; expressionAt env.maxDepth env) (c.start text)) _ :=
    ((levels_blind _).1 env).shifted cuts c.cache
  rw [reads] at agree
  generalize elsewhere : (do next; expressionAt env.maxDepth env : Reader Operand)
    ⟨Token.atEnd 0, run, c.cache⟩ = result at agree
  cases agree with
  | @ok _ o' _ s' result state =>
    cases result
    have ends : s'.token.kind = .endOfText := state.token.kind_eq.symm.trans atEnd
    refine ⟨(expressionAt_place cuts.words elsewhere ends).1, fun p t₀ kept => ⟨o, same, ?_⟩⟩
    rw [state.cache] at kept ⊢
    exact (expressionAt_place cuts.words (next_anywhere elsewhere t₀) ends).2 p kept

/-- A text that has been read is read again as the same expression, and finds the record types that
it has made. -/
theorem readExpr_again (h : readExpr c none text = (.ok e, cache))
    (extended : later.Extends cache) :
    readExpr { c with cache := later } none text = (.ok e, later) := by
  obtain ⟨env, host⟩ := exists_host h
  obtain ⟨clean, place⟩ := readExpr_place host h (cuts_scan text)
  obtain ⟨pos, whole⟩ := TokenRun.followedBy_done clean
  have kept : ∀ l ∈ (Place.atEnd pos (some later)).kept, l.Extends cache := by
    rintro l ⟨⟩
    exact extended
  obtain ⟨o, same, reads⟩ := place (.atEnd pos (some later)) (Token.atEnd 0) kept
  have start : (Token.scan text).followedBy (Place.atEnd pos (some later)).behind =
      Token.scan text := whole
  rw [start] at reads
  exact (readExpr_ok_iff (c := { c with cache := later }) host).mpr ⟨o, _, reads, rfl, same, rfl⟩

/-! ## Parentheses -/

section Parentheses

variable {operand expression : Part} {s s' : State} {o : Operand}

/-- An operand before the end of expressions is an expression. -/
theorem expressionOf_operand (reads : operand env s = .ok o s')
    (ends : Level.conditional.StopsAt s'.token) :
    expressionOf operand expression env s = .ok o s' := by
  have joins : ∀ {r : Reader Operand} (level : Precedence), r s = .ok o s' →
      joined level r s = .ok o s' := by
    intro r level reads
    rw [joined, bind_of_ok reads]
    have other : s'.token.precedence? ≠ some level := by
      simp [precedence?_of_ends ends]
    exact joinUpTo_ends other r _ o
  have test : binaryOf (operand env) s = .ok o s' :=
    joins _ (joins _ (joins _ (joins _ (joins _ reads))))
  show (binaryOf (operand env) >>= fun test => isAt .question >>= fun choice =>
    if choice = true then _ else return test) s = _
  rw [bind_of_ok test]
  show (if (s'.token.kind == .question) = true then _ else return o : Reader Operand) s' = _
  rw [beq_false_of_ne (ends.noChoice rfl), if_neg Bool.false_ne_true]
  rfl

/-- Between parentheses an expression is an operand. -/
theorem unaryOf_parenthesized {t u : Token} {run rest : TokenRun} {between : RecordCache}
    (opening : t.kind = .openParen) (closing : u.kind = .closeParen)
    (reads : (do next; expression env) ⟨t, run, cache⟩ = .ok o ⟨u, rest, between⟩)
    (moves : next ⟨u, rest, between⟩ = .ok () s') (ends : Level.conditional.StopsAt s'.token) :
    unaryOf operand expression env ⟨t, run, cache⟩ = .ok o s' := by
  have inner : parenthesized expression env ⟨t, run, cache⟩ = .ok o s' := by
    have split : parenthesized expression env = (do next; expression env) >>= fun o => do
        skip .closeParen .closeParenOrOperatorExpected
        return o := by
      simp only [parenthesized, bind_assoc]
    have closes : skip .closeParen .closeParenOrOperatorExpected ⟨u, rest, between⟩ = .ok () s' :=
      (bind_expect closing).trans moves
    rw [split, bind_of_ok reads, bind_of_ok closes]
    rfl
  obtain ⟨kind, word, pos⟩ := t
  cases opening
  have start : primaryStart expression env ⟨⟨.openParen, word, pos⟩, run, cache⟩ = .ok o s' := inner
  have whole : primary expression env ⟨⟨.openParen, word, pos⟩, run, cache⟩ = .ok o s' := by
    rw [primary, bind_of_ok start]
    exact postfixesUpTo_ends ends.noMember env _ o
  exact whole

/-- Where a level more is left, an expression between parentheses is read as it is without them. -/
theorem expressionAt_parenthesized {n : Nat} {t u : Token} {run rest : TokenRun}
    {between : RecordCache} (opening : t.kind = .openParen) (closing : u.kind = .closeParen)
    (reads : (do next; expressionAt n env) ⟨t, run, cache⟩ = .ok o ⟨u, rest, between⟩)
    (moves : next ⟨u, rest, between⟩ = .ok () s') (ends : Level.conditional.StopsAt s'.token) :
    expressionAt (n + 1) env ⟨t, run, cache⟩ = .ok o s' := by
  obtain ⟨operand, same⟩ := operandAt_eq n
  have reads : operandAt n env ⟨t, run, cache⟩ = .ok o s' := by
    rw [same]
    exact unaryOf_parenthesized opening closing reads moves ends
  exact expressionOf_operand reads ends

/-- The tokens of a text between parentheses. -/
theorem scan_parenthesized {run : TokenRun} (inside : Cuts ['('] text.toList run)
    (clean : run.error? = none) : ∃ closing pos, Token.scan ("(" ++ text ++ ")") =
      .token ⟨.openParen, "(", 0⟩
        (run.followedBy (.token ⟨.closeParen, ")", closing⟩ (.done pos))) := by
  have ended : Cuts (['('] ++ text.toList ++ [')']) [] (.done _) := .done (by simp)
  have behind : Cuts (['('] ++ text.toList) [')'] (.token ⟨.closeParen, ")", _⟩ _) :=
    .sign (by decide) (by decide) ended
  have glued := inside.append clean (by simpa using Separates.of_closing (by simp)) behind
  have whole : Cuts [] ('(' :: (text.toList ++ [')'])) (.token ⟨.openParen, "(", 0⟩ _) :=
    .sign (by decide) (by decide) glued
  exact ⟨_, _, Cuts.scan (by simpa using whole)⟩

/-- With a level more, the text between parentheses is the same expression. -/
theorem readExpr_parenthesized (h : readExpr c none text = (.ok e, cache)) {d : Nat}
    (more : c.maxDepth < d) :
    readExpr { c with maxDepth := d } none ("(" ++ text ++ ")") = (.ok e, cache) := by
  obtain ⟨env, host⟩ := exists_host h
  have host' : Env.ofHost c.params c.values d = .ok (env.limited d) := by
    rw [Env.ofHost_limited c.params c.values c.maxDepth d, host]
    rfl
  obtain ⟨run, inside, -⟩ := (cuts_scan text).shift ['(']
  obtain ⟨clean, place⟩ := readExpr_place host h inside
  obtain ⟨n, rfl⟩ := Nat.exists_eq_add_of_lt more
  obtain ⟨closing, pos, scanned⟩ := scan_parenthesized inside clean
  let stop : Place := .before (.token ⟨.closeParen, ")", closing⟩ (.done pos)) (by simp) none
  obtain ⟨o, same, reads⟩ := place stop ⟨.openParen, "(", 0⟩ nofun
  have deeper : Reader.Deepens (do next; expressionAt env.maxDepth env)
      (do next; expressionAt (c.maxDepth + n) (env.limited (c.maxDepth + n + 1))) :=
    .andThen fun _ => (levels_deepen _ (by rw [Env.ofHost_maxDepth host]; omega)).1 env
  rcases deeper ⟨⟨.openParen, "(", 0⟩, run.followedBy stop.behind, c.cache⟩ with
    same' | ⟨_, _, stopped, -⟩
  · have inner := expressionAt_parenthesized rfl rfl (same'.trans reads) rfl
      (Level.stopsAt_of_kind (by simp [Token.atEnd]))
    let c' : Context := { c with maxDepth := c.maxDepth + n + 1 }
    have start : c'.start ("(" ++ text ++ ")") =
        ⟨Token.atEnd 0, .token ⟨.openParen, "(", 0⟩ (run.followedBy stop.behind), c.cache⟩ := by
      rw [Context.start, scanned]
      rfl
    refine (readExpr_ok_iff (c := c') host').mpr
      ⟨o, ⟨Token.atEnd pos, .done pos, cache⟩, ?_, rfl, same, rfl⟩
    rw [start]
    exact inner
  · cases stopped.symm.trans reads

end Parentheses

/-! ## Orderings -/

/-- A key as it is written, with the selector and the direction that it stands for. -/
structure WrittenKey where
  text : String
  key : OrderingKey

/-- Keys with their directions, and commas in between. -/
inductive ClauseText : List WrittenKey → List Char → Prop where
  | last {k direction} (h : DirectionText direction k.key.ascending) :
      ClauseText [k] (k.text.toList ++ direction)
  | more {k direction keys blanks rest} (h : DirectionText direction k.key.ascending)
      (blank : ∀ c ∈ blanks, Text.isWhiteSpace c) (later : ClauseText keys rest) :
      ClauseText (k :: keys) (k.text.toList ++ (direction ++ ',' :: (blanks ++ rest)))

theorem ClauseText.length_pos {keys : List WrittenKey} {cs : List Char} (h : ClauseText keys cs) :
    0 < keys.length := by
  cases h <;> exact Nat.succ_pos _

/-- The text is the expression, and takes the first cache to the second: it is read from there, or
has been read before all record types of the cache were made. -/
inductive Accepted (c : Context) (text : String) (e : Expr) : RecordCache → RecordCache → Prop where
  | now {before after} (h : readExpr { c with cache := before } none text = (.ok e, after)) :
      Accepted c text e before after
  | earlier {before after later} (extended : later.Extends after)
      (h : readExpr { c with cache := before } none text = (.ok e, after)) :
      Accepted c text e later later

theorem Accepted.reads {before after : RecordCache} (h : Accepted c text e before after) :
    readExpr { c with cache := before } none text = (.ok e, after) := by
  cases h with
  | now h => exact h
  | earlier extended h =>
      have again := readExpr_again h extended
      exact again

/-- The texts of the keys are accepted one after another. -/
inductive AcceptedAll (c : Context) : List WrittenKey → RecordCache → RecordCache → Prop where
  | nil (cache : RecordCache) : AcceptedAll c [] cache cache
  | cons {k keys before between after} (h : Accepted c k.text k.key.selector before between)
      (later : AcceptedAll c keys between after) : AcceptedAll c (k :: keys) before after

theorem AcceptedAll.exists_host {keys : List WrittenKey} {before after : RecordCache}
    (h : AcceptedAll c keys before after) (some : 0 < keys.length) :
    ∃ env, Env.ofHost c.params c.values c.maxDepth = .ok env := by
  cases h with
  | nil => cases some
  | cons h later =>
      have host := Source.exists_host h.reads
      exact host

section Orderings

variable {α : Type} {item : Reader α} {s s' s'' : State} {a : α} {as : List α}

theorem itemsUpTo_last (h : item s = .ok a s') (last : s'.token.kind ≠ .comma) (n : Nat) :
    itemsUpTo item n s = .ok [a] s' := by
  cases n with
  | zero => exact bind_of_ok h
  | succ n =>
      rw [itemsUpTo, bind_of_ok h]
      show (if (s'.token.kind == .comma) = true then _ else pure [a] : Reader _) s' = _
      rw [beq_false_of_ne last, if_neg Bool.false_ne_true]
      rfl

theorem itemsUpTo_more {n : Nat} (h : item s = .ok a s') (comma : s'.token.kind = .comma)
    (later : (do next; itemsUpTo item n) s' = .ok as s'') :
    itemsUpTo item (n + 1) s = .ok (a :: as) s'' := by
  obtain ⟨u, t, passed, rest⟩ := exists_of_bind later
  rw [itemsUpTo, bind_of_ok h]
  show (if (s'.token.kind == .comma) = true then _ else pure [a] : Reader _) s' = _
  rw [if_pos (beq_iff_eq.mpr comma), bind_of_ok passed, bind_of_ok rest]
  rfl

/-- A key is read where it stands, up to the comma or the end behind its direction. -/
theorem orderingKey_reads {direction more front : List Char} {tail rest : TokenRun} {t : Token}
    {ascending : Bool} {before after : RecordCache}
    (host : Env.ofHost c.params c.values c.maxDepth = .ok env)
    (accepted : Accepted c text e before after) (h : DirectionText direction ascending)
    (apart : ∀ c ∈ more.head?, Separates c)
    (behind : Cuts (front ++ text.toList ++ direction) more tail) (opens : tail.Opens t rest)
    (kind : t.kind ∈ [.comma, .endOfText]) :
    ∃ run, Cuts front (text.toList ++ (direction ++ more)) run ∧ tail.length ≤ run.length ∧
      ∀ t₀, (do next; orderingKey env) ⟨t₀, run, before⟩ = .ok ⟨e, ascending⟩ ⟨t, rest, after⟩ := by
  obtain ⟨run, inside, -⟩ := (cuts_scan text).shift front
  obtain ⟨clean, place⟩ :=
    readExpr_place (c := { c with cache := before }) host accepted.reads inside
  obtain ⟨separate, p, none, cuts, long, directs⟩ := h.place apart behind opens kind
  refine ⟨_, inside.append clean separate cuts,
    long.trans (TokenRun.length_followedBy_le clean _), fun t₀ => ?_⟩
  obtain ⟨o, rfl, reads⟩ := place p t₀ (by simp [none])
  simp only [none, Option.getD_none] at reads
  have split : (do next; orderingKey env) = (do next; expressionAt env.maxDepth env) >>= fun o => do
      let ascending ← isAscending
      return ⟨o.expr, ascending⟩ := by
    simp only [orderingKey, bind_assoc]
  rw [split, bind_of_ok reads, bind_of_ok (directs _)]
  rfl

/-- A clause is read key after key. -/
theorem clause_reads {keys : List WrittenKey} {cs : List Char} {before after : RecordCache}
    (host : Env.ofHost c.params c.values c.maxDepth = .ok env) (layout : ClauseText keys cs)
    (accepted : AcceptedAll c keys before after) (front : List Char) :
    ∃ run pos, Cuts front cs run ∧ keys.length ≤ run.length + 1 ∧
      ∀ t₀ n, keys.length ≤ n + 1 → (do next; itemsUpTo (orderingKey env) n) ⟨t₀, run, before⟩ =
        .ok (keys.map (·.key)) ⟨Token.atEnd pos, .done pos, after⟩ := by
  induction layout generalizing before front with
  | @last k direction h =>
      cases accepted with
      | cons accepted finished =>
          cases finished
          have ended : Cuts (front ++ k.text.toList ++ direction) [] (.done _) := .done (by simp)
          obtain ⟨run, cuts, -, reads⟩ :=
            orderingKey_reads host accepted h (by simp) ended (.done _) (by simp [Token.atEnd])
          rw [List.append_nil] at cuts
          refine ⟨run, (front ++ k.text.toList ++ direction ++ []).length, cuts,
            Nat.le_add_left _ _, fun t₀ n _ => ?_⟩
          obtain ⟨u, s, opened, first⟩ := exists_of_bind (reads t₀)
          rw [bind_of_ok opened]
          exact itemsUpTo_last first nofun n
  | @more k direction keys blanks rest h blank later ih =>
      cases accepted with
      | @cons _ _ _ between _ accepted others =>
          have comma : Separates ',' := .of_closing (by simp)
          obtain ⟨run, pos, cuts, long, reads⟩ :=
            ih others (front ++ k.text.toList ++ direction ++ [','] ++ blanks)
          have behind : Cuts (front ++ k.text.toList ++ direction) (',' :: (blanks ++ rest))
              (.token ⟨.comma, ",", _⟩ run) :=
            .sign (by decide) (by decide) (cuts.after_blanks blank)
          obtain ⟨whole, cuts', long', reads'⟩ :=
            orderingKey_reads host accepted h (by simpa using comma) behind (.token _ _) (by simp)
          refine ⟨whole, pos, cuts', ?_, fun t₀ n enough => ?_⟩
          · have one : (TokenRun.token ⟨.comma, ",", (front ++ k.text.toList ++ direction).length⟩
              run).length = run.length + 1 := rfl
            rw [List.length_cons]
            omega
          · have some := later.length_pos
            rw [List.length_cons] at enough
            obtain ⟨n, rfl⟩ : ∃ m, n = m + 1 := ⟨n - 1, by omega⟩
            obtain ⟨u, s, opened, first⟩ := exists_of_bind (reads' t₀)
            rw [bind_of_ok opened]
            exact itemsUpTo_more first rfl (reads _ n (by omega))

/-- A clause of texts that are accepted one after another is their selectors, in order, with the
directions as written. -/
theorem readOrdering_clause {keys : List WrittenKey} {before after : RecordCache}
    (accepted : AcceptedAll c keys before after) (layout : ClauseText keys text.toList) :
    readOrdering { c with cache := before } text = (.ok (keys.map (·.key)), after) := by
  obtain ⟨env, host⟩ := accepted.exists_host layout.length_pos
  obtain ⟨run, pos, cuts, long, reads⟩ := clause_reads host layout accepted []
  let c' : Context := { c with cache := before }
  have start : c'.start text = ⟨Token.atEnd 0, run, before⟩ := by
    rw [Context.start, cuts.scan]
  refine (read_ok_iff (c := c') host).mpr ⟨⟨Token.atEnd pos, .done pos, after⟩, ?_, rfl⟩
  rw [start]
  -- the steps are counted at the first token
  obtain ⟨u, s, opened, -⟩ := exists_of_bind (reads (Token.atEnd 0) keys.length (Nat.le_succ _))
  have steps : run.length ≤ s.rest.length + 1 := by
    cases run with
    | failed d => cases opened
    | done pos => exact Nat.zero_le _
    | token t rest =>
        cases opened
        exact Nat.le_refl _
  have whole := reads (Token.atEnd 0) (s.rest.length + 1) (by omega)
  rw [bind_of_ok opened] at whole ⊢
  have items : Reader.items (orderingKey env) s = .ok (keys.map (·.key)) _ := whole
  rw [wholeOrdering, bind_of_ok items]
  exact bind_expect rfl

end Orderings

/-- A text that is accepted as an expression is the same one in parentheses, with a level more, and
as a key of an ordering. -/
theorem expressions_compose :
    (∀ (c : Context) (text : String) (e : Expr) (before after : RecordCache) (d : Nat),
      Accepted c text e before after → c.maxDepth < d →
      readExpr { c with maxDepth := d, cache := before } none ("(" ++ text ++ ")") =
        (.ok e, after)) ∧
    ∀ (c : Context) (keys : List WrittenKey) (before after : RecordCache) (text : String),
      AcceptedAll c keys before after → ClauseText keys text.toList →
      readOrdering { c with cache := before } text = (.ok (keys.map (·.key)), after) := by
  refine ⟨fun c text e before after d accepted more => ?_,
    fun c keys before after text accepted layout => readOrdering_clause accepted layout⟩
  have parenthesized := readExpr_parenthesized accepted.reads more
  exact parenthesized

theorem expressions_compose_records :
    let c : Context := ⟨[], [], 2, .empty none⟩
    ∃ (e : Expr) (cache : RecordCache), Accepted c "new(1 as A)" e c.cache cache ∧
      readExpr { c with maxDepth := 3, cache := c.cache } none ("(" ++ "new(1 as A)" ++ ")") =
        (.ok e, cache) ∧
      readOrdering { c with cache := c.cache } "new(1 as A) Desc, new(1 as A)" =
        (.ok [⟨e, false⟩, ⟨e, true⟩], cache) := by
  intro c
  have shows : (readExpr c none "new(1 as A)").1.toOption.map Expr.toText =
      some "new DynamicClass1(A = 1)" := by decide +kernel
  obtain ⟨e, cache, read, -⟩ := ok_of_map shows
  have accepted : Accepted c "new(1 as A)" e c.cache cache := .now read
  have again : Accepted c "new(1 as A)" e cache cache := .earlier (.refl cache) read
  have space : ∀ c ∈ [' '], Text.isWhiteSpace c := List.all_eq_true.mp (by decide)
  have direction : DirectionText ([' '] ++ ("Desc".toList ++ [])) false :=
    .word space (by simp) (show ("desc", false) ∈ directionWords by decide) (by decide) (by simp)
  have last : ClauseText [⟨"new(1 as A)", ⟨e, true⟩⟩] ("new(1 as A)".toList ++ []) :=
    .last (.none (by simp))
  have layout := ClauseText.more (k := ⟨"new(1 as A)", ⟨e, false⟩⟩) direction space last
  have written : "new(1 as A)".toList ++ ([' '] ++ ("Desc".toList ++ []) ++
      ',' :: ([' '] ++ ("new(1 as A)".toList ++ []))) = "new(1 as A) Desc, new(1 as A)".toList := by
    decide
  rw [written] at layout
  exact ⟨e, cache, accepted, expressions_compose.1 c _ e _ _ 3 accepted (by decide),
    expressions_compose.2 c _ _ _ _ (.cons accepted (.cons again (.nil cache))) layout⟩

end TypedExpr.Source
