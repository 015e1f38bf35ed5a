import TypedExpr.Proofs.Composition

/-! # Texts of single literals

A text that is one literal is read as what the literal stands for, and is refused where the literal
stands for nothing. A minus before a number is a part of the number, whatever blanks are between
them.
-/

namespace TypedExpr

/-- The token is a literal, and the operand or the error is what is made of it. -/
inductive Token.Denotes : Token → Except Diagnostic Operand → Prop where
  | quoted {t} (h : t.kind = .stringLiteral) : Denotes t (Operand.ofQuoted t)
  | integer {t} (h : t.kind = .integerLiteral) : Denotes t (Operand.ofInteger t)
  | real {t} (h : t.kind = .realLiteral) : Denotes t (Operand.ofReal t)

namespace Source

open Token Reader

/-- The host has put its names, and an expression can be read. -/
structure Context.Ready (c : Context) : Prop where
  host : ∃ env, Env.ofHost c.params c.values c.maxDepth = .ok env
  level : 0 < c.maxDepth

variable {c : Context} {s : State} {x : Except Diagnostic Operand} {env : Env}
  {operand expression : Part} {kind : TokenKind} {word blanks rest : List Char}

/-! ## Literals alone -/

/-- From the state the reader makes the operand of all that is left, or stops at the error. It has
made no record types. -/
def Settles (r : Reader Operand) (s : State) : Except Diagnostic Operand → Prop
  | .ok o => ∃ pos, r s = .ok o ⟨Token.atEnd pos, .done pos, s.cache⟩
  | .error e => ∃ s', r s = .error e s' ∧ s'.cache = s.cache

/-- What comes after does nothing at the end. -/
theorem Settles.bind {r : Reader Operand} {f : Operand → Reader Operand} (h : Settles r s x)
    (stays : ∀ o pos cache, f o ⟨Token.atEnd pos, .done pos, cache⟩ =
      .ok o ⟨Token.atEnd pos, .done pos, cache⟩) : Settles (r >>= f) s x := by
  cases x with
  | ok o =>
      obtain ⟨pos, reads⟩ := h
      exact ⟨pos, by rw [bind_of_ok reads, stays]⟩
  | error e =>
      obtain ⟨s', refused, same⟩ := h
      exact ⟨s', bind_of_error refused, same⟩

theorem literal_settles (ends : ∀ o, x = .ok o → ∃ pos, s.rest = .done pos) :
    Settles (literal x) s x := by
  cases x with
  | ok o =>
      obtain ⟨pos, last⟩ := ends o rfl
      obtain ⟨t, run, cache⟩ := s
      cases last
      exact ⟨pos, rfl⟩
  | error e => exact ⟨s, rfl, rfl⟩

/-- A literal is a primary expression by itself. -/
theorem primary_settles (denotes : s.token.Denotes x)
    (ends : ∀ o, x = .ok o → ∃ pos, s.rest = .done pos) :
    Settles (primary expression env) s x := by
  have start : primaryStart expression env s = literal x s := by
    obtain ⟨⟨kind, text, pos⟩, run, cache⟩ := s
    cases denotes with
    | quoted h | integer h | real h =>
        cases h
        rfl
  have first : Settles (primaryStart expression env) s x := by
    have literal := literal_settles ends
    cases x <;> rwa [Settles, start]
  exact first.bind fun o pos cache => postfixesUpTo_ends (by simp [Token.atEnd]) env _ o

theorem unaryOf_settles (denotes : s.token.Denotes x)
    (ends : ∀ o, x = .ok o → ∃ pos, s.rest = .done pos) :
    Settles (unaryOf operand expression env) s x := by
  have primary : Settles (primary expression env) s x := primary_settles denotes ends
  have plain : s.token.unaryOp? = none := by
    cases denotes with
    | quoted h | integer h | real h => simp [unaryOp?, isWord, h]
  have same : unaryOf operand expression env s = Source.primary expression env s := by
    have looked : token s = .ok s.token s := rfl
    rw [unaryOf, bind_of_ok looked, plain]
  cases x <;> rwa [Settles, same]

/-- A minus before a number is read with it. -/
theorem unaryOf_signed {t number : Token} {run : TokenRun} {cache : RecordCache}
    (minus : t.kind = .minus) (isNumber : isNumber number)
    (denotes : Token.Denotes ⟨number.kind, "-" ++ number.text, t.pos⟩ x)
    (ends : ∀ o, x = .ok o → ∃ pos, run = .done pos) :
    Settles (unaryOf operand expression env) ⟨t, .token number run, cache⟩ x := by
  have primary : Settles (primary expression env)
      ⟨⟨number.kind, "-" ++ number.text, t.pos⟩, run, cache⟩ x := primary_settles denotes ends
  obtain ⟨kind, text, pos⟩ := t
  cases minus
  have same : unaryOf operand expression env ⟨⟨.minus, text, pos⟩, .token number run, cache⟩ =
      Source.primary expression env ⟨⟨number.kind, "-" ++ number.text, pos⟩, run, cache⟩ := by
    show (if TokenKind.minus = .minus ∧ Source.isNumber number then do
        modify fun s => { s with token := ⟨number.kind, "-" ++ number.text, pos⟩ }
        Source.primary expression env
      else _ : Reader Operand) ⟨number, run, cache⟩ = _
    rw [if_pos ⟨rfl, isNumber⟩]
    rfl
  cases x <;> rwa [Settles, same]

/-- An operand by itself is an expression. -/
theorem expressionOf_settles (h : Settles (operand env) s x) :
    Settles (expressionOf operand expression env) s x := by
  have joins : ∀ {r : Reader Operand} (level : Precedence), Settles r s x →
      Settles (joined level r) s x :=
    fun level h => h.bind fun o pos cache =>
      joinUpTo_ends (by simp [precedence?, isWord, Token.atEnd]) _ _ o
  have test : Settles (binaryOf (operand env)) s x :=
    joins _ (joins _ (joins _ (joins _ (joins _ h))))
  exact test.bind fun o pos cache => rfl

/-- What an operand settles at is what the text is read as. -/
theorem readExpr_of_settles {text : String} (ready : c.Ready)
    (opens : next (c.start text) = .ok () s) (h : ∀ env n, Settles (operandAt n env) s x) :
    readExpr c none text = (x.map (·.expr), c.cache) := by
  obtain ⟨⟨env, host⟩, level⟩ := ready
  have same : s.cache = c.cache := by
    simp only [Context.start] at opens
    cases run : Token.scan text <;> rw [run] at opens <;> cases opens <;> rfl
  obtain ⟨n, depth⟩ := Nat.exists_eq_add_of_le' level
  have whole : Settles (expressionAt env.maxDepth env) s x := by
    rw [Env.ofHost_maxDepth host, depth]
    exact expressionOf_settles (h env n)
  cases x with
  | ok o =>
      obtain ⟨pos, reads⟩ := whole
      refine (readExpr_ok_iff host).mpr ⟨o, _, (bind_of_ok opens).trans reads, rfl, rfl, same⟩
  | error e =>
      obtain ⟨s', refused, kept⟩ := whole
      let ends (o : Operand) : Reader Expr := do expect .endOfText .syntaxError; return o.expr
      have stopped : (expressionAt env.maxDepth env >>= ends) s = .error e s' :=
        bind_of_error refused
      have started : (do next; wholeExpression none env : Reader Expr)
          ⟨Token.atEnd 0, Token.scan text, c.cache⟩ = .error e s' :=
        (bind_of_ok opens).trans stopped
      simp only [readExpr, read, host, started, kept, same]
      rfl

/-! ## Texts -/

/-- Before blanks, or before anything where it stands for nothing, a literal is read as what it
stands for. -/
theorem readExpr_literal (ready : c.Ready) (blank : ∀ d ∈ blanks, Text.isWhiteSpace d)
    (lexeme : Lexeme kind word rest)
    (denotes : Token.Denotes ⟨kind, String.ofList word, blanks.length⟩ x)
    (ends : ∀ o, x = .ok o → ∀ d ∈ rest, Text.isWhiteSpace d) :
    readExpr c none (String.ofList (blanks ++ (word ++ rest))) = (x.map (·.expr), c.cache) := by
  obtain ⟨run, later⟩ := exists_cuts ([] ++ blanks ++ word) rest
  have scanned : Token.scan (String.ofList (blanks ++ (word ++ rest))) =
      .token ⟨kind, String.ofList word, blanks.length⟩ run := by
    refine Cuts.scan ?_
    rw [String.toList_ofList]
    exact .token blank lexeme later
  -- a literal that stands for an operand must be the last token
  have done : ∀ o, x = .ok o → ∃ pos, run = .done pos :=
    fun o made => ⟨_, later.unique (.done (ends o made))⟩
  refine readExpr_of_settles ready (by rw [Context.start, scanned]; rfl) fun env n => ?_
  obtain ⟨operand, same⟩ := operandAt_eq n
  rw [same]
  exact unaryOf_settles denotes done

theorem readExpr_alone (ready : c.Ready) (lexeme : Lexeme kind word [])
    (denotes : Token.Denotes ⟨kind, String.ofList word, 0⟩ x) :
    readExpr c none (String.ofList word) = (x.map (·.expr), c.cache) := by
  have whole : readExpr c none (String.ofList ([] ++ (word ++ []))) = _ :=
    readExpr_literal ready (by simp) lexeme denotes (by simp)
  rwa [List.nil_append, List.append_nil] at whole

/-- A minus, blanks and a number are read as the number with the sign. -/
theorem readExpr_signed (ready : c.Ready) (blank : ∀ d ∈ blanks, Text.isWhiteSpace d)
    (lexeme : Lexeme kind word []) (number : kind ∈ [.integerLiteral, .realLiteral])
    (denotes : Token.Denotes ⟨kind, String.ofList ('-' :: word), 0⟩ x) :
    readExpr c none (String.ofList ('-' :: (blanks ++ word))) = (x.map (·.expr), c.cache) := by
  obtain ⟨start, pos, behind⟩ : ∃ start pos, Cuts ([] ++ ['-']) (blanks ++ word)
      (.token ⟨kind, String.ofList word, start⟩ (.done pos)) := by
    have cuts : Cuts ([] ++ ['-']) (blanks ++ (word ++ [])) (.token _ (.done _)) :=
      .token blank lexeme (.done (by simp))
    rw [List.append_nil] at cuts
    exact ⟨_, _, cuts⟩
  have scanned : Token.scan (String.ofList ('-' :: (blanks ++ word))) = .token ⟨.minus, "-", 0⟩
      (.token ⟨kind, String.ofList word, start⟩ (.done pos)) := by
    refine Cuts.scan ?_
    rw [String.toList_ofList]
    exact .sign (by decide) (by decide) behind
  refine readExpr_of_settles ready (by rw [Context.start, scanned]; rfl) fun env n => ?_
  obtain ⟨operand, same⟩ := operandAt_eq n
  rw [same]
  refine unaryOf_signed rfl ?_ ?_ fun _ _ => ⟨_, rfl⟩
  · simpa [isNumber] using number
  · have sign : "-" ++ String.ofList word = String.ofList ('-' :: word) := by
      simp
    rw [sign]
    exact denotes

end Source
end TypedExpr
