import TypedExpr.Proofs.Composition
import TypedExpr.Proofs.Conditionals
import TypedExpr.Proofs.TextsAlone

/-! # The two spellings of a conditional

A conditional is written with `iif` or with a question mark and a colon. Both readings come to what
its three texts are by themselves, read one after another, and then to the same conditional.
-/

namespace TypedExpr

namespace Token

variable {front : List Char} {t : Token} {rest : TokenRun}

/-- A text, a sign with blanks around it, and what stands behind. -/
theorem Cuts.joined {kind : TokenKind} {c : Char} {text more : List Char} {run later : TokenRun}
    (h : Cuts front text run) (clean : run.error? = none) {blanks : List Char}
    (blank : ∀ d ∈ blanks, Text.isWhiteSpace d) (apart : ∀ d ∈ (blanks ++ [c]).head?, Separates d)
    (mem : ([c], kind) ∈ signTable) (single : ∀ entry ∈ signTable, c ∈ entry.1 → entry.1 = [c])
    {blanks' : List Char} (blank' : ∀ d ∈ blanks', Text.isWhiteSpace d)
    (behind : Cuts (front ++ text ++ blanks ++ [c] ++ blanks') more later) :
    ∃ pos, Cuts front (text ++ (blanks ++ c :: (blanks' ++ more)))
      (run.followedBy (.token ⟨kind, String.ofList [c], pos⟩ later)) := by
  have sign := Cuts.sign mem single (behind.after_blanks blank')
  refine ⟨_, h.append clean ?_ (sign.after_blanks blank)⟩
  cases blanks <;> exact apart

/-- A token stands at once where no blank does. -/
theorem Cuts.first_pos {text : List Char} (h : Cuts front text (.token t rest))
    (visible : ∀ c ∈ text.head?, Text.isWhiteSpace c = false) : t.pos = front.length := by
  generalize same : TokenRun.token t rest = run at h
  cases h with
  | done | failed => cases same
  | @token _ blanks kind word behind run blank lexeme later =>
      cases same
      cases blanks with
      | nil => simp
      | cons c cs =>
          have shown := visible c rfl
          rw [blank c (by simp)] at shown
          cases shown

end Token

namespace Source

open Token Reader

/-! ## Readings of the two spellings -/

section Spellings

variable {env : Env} {operand expression : Part} {cache : RecordCache}

/-- Three operands are known, and what is read is the conditional of them, made at `pos`. -/
def Chooses (pos : Nat) (operands : Operand × Operand × Operand) (cache : RecordCache)
    (x : EStateM.Result Diagnostic State Operand) : Prop :=
  ∃ last, x = check (Operand.conditional operands.1 operands.2.1 operands.2.2 pos)
    ⟨Token.atEnd last, .done last, cache⟩

/-- Before a token that is no question mark an expression is a test alone. -/
theorem expressionOf_meets {p : Site} (noChoice : p.NoChoice) {s : State}
    {x : EStateM.Result Problem RecordCache Operand}
    (test : Meets (Lands p.after) x (binaryOf (operand env) s)) :
    Meets (Lands p.after) x (expressionOf operand expression env s) := by
  have whole : expressionOf operand expression env s =
      (binaryOf (operand env) >>= fun test => isAt .question >>= fun choice =>
        if choice = true then (do
          next
          let whenTrue ← expression env
          skip .colon .colonExpected
          let whenFalse ← expression env
          check (Operand.conditional test whenTrue whenFalse s.token.pos))
        else return test) s := rfl
  rw [whole]
  generalize read : binaryOf (operand env) s = y at test
  cases test with
  | @ok o later _ h =>
      cases h
      refine .ok ?_
      rw [bind_of_ok read]
      show (if (p.first.kind == .question) = true then _ else return o : Reader Operand) _ = _
      rw [beq_false_of_ne noChoice, if_neg Bool.false_ne_true]
      rfl
  | error e s' =>
      rw [bind_of_error read]
      exact .error e s'

/-- The rest of a list behind an item. -/
def following {α : Type} (item : Reader α) (n : Nat) (a : α) : Reader (List α) := do
  if ← isAt .comma then
    next
    let as ← itemsUpTo item n
    return a :: as
  else return [a]

theorem itemsUpTo_succ {α : Type} (item : Reader α) (n : Nat) :
    itemsUpTo item (n + 1) = item >>= following item n := rfl

theorem itemsUpTo_following {α β : Type} (item : Reader α) (n : Nat) (f : List α → Reader β) :
    itemsUpTo item (n + 1) >>= f = item >>= fun a => following item n a >>= f := by
  rw [itemsUpTo_succ, bind_assoc]

theorem following_comma {α β : Type} {item : Reader α} {n : Nat} {a : α}
    {f : List α → Reader β} {s : State} {t : Token} {rest : TokenRun}
    (comma : s.token.kind = .comma) (behind : s.rest = .token t rest) :
    (following item n a >>= f) s =
      (itemsUpTo item n >>= fun as => f (a :: as)) ⟨t, rest, s.cache⟩ := by
  obtain ⟨⟨_, word, pos⟩, _, cache⟩ := s
  cases comma
  cases behind
  have split : following item n a >>= f = isAt .comma >>= fun more =>
      if more = true then next >>= fun _ => itemsUpTo item n >>= fun as => f (a :: as)
      else f [a] := by
    simp only [following, bind_assoc]
    refine bind_congr fun more => ?_
    split <;> simp
  rw [split]
  rfl

theorem following_last {α β : Type} {item : Reader α} {n : Nat} {a : α}
    {f : List α → Reader β} {s : State} (last : s.token.kind ≠ .comma) :
    (following item n a >>= f) s = f [a] s := by
  have ends : following item n a s = .ok [a] s := by
    show (if (s.token.kind == .comma) = true then _ else return [a] : Reader (List _)) s = _
    rw [beq_false_of_ne last, if_neg Bool.false_ne_true]
    rfl
  exact bind_of_ok ends

/-- What is made of the arguments of `iif`. -/
def closing (pos : Nat) (args : List Operand) : Reader Operand := do
  skip .closeParen .closeParenOrCommaExpected
  match args with
  | [test, whenTrue, whenFalse] => check (Operand.conditional test whenTrue whenFalse pos)
  | _ => failAt pos .iifNeedsThreeArguments

theorem iif_arguments {word opening t : Token} {rest : TokenRun} (kind : opening.kind = .openParen)
    (some : t.kind ≠ .closeParen) :
    iif expression env ⟨word, .token opening (.token t rest), cache⟩ =
      (itemsUpTo (expression env) (rest.length + 1) >>= closing word.pos) ⟨t, rest, cache⟩ := by
  obtain ⟨_, text, pos⟩ := opening
  cases kind
  have split : iif expression env = token >>= fun t => next >>= fun _ =>
      skip .openParen .openParenExpected >>= fun _ => isAt .closeParen >>= fun none =>
      if none = true then closing t.pos [] else items (expression env) >>= closing t.pos := by
    simp only [iif, argumentList, bind_assoc]
    refine bind_congr fun t => bind_congr fun _ => bind_congr fun _ => bind_congr fun none => ?_
    split
    · simp [closing]
    · simp only [bind_assoc, pure_bind]
      rfl
  rw [split]
  show (if (t.kind == .closeParen) = true then closing word.pos [] else _ : Reader Operand) _ = _
  rw [beq_false_of_ne some, if_neg Bool.false_ne_true]
  rfl

/-- An identifier that is no word for it is no operator on one operand. -/
theorem unaryOp?_identifier {w : String} (other : Text.sameIgnoringCase w "not" = false)
    (pos : Nat) : unaryOp? ⟨.identifier, w, pos⟩ = none := by
  simp [unaryOp?, isWord, other]

/-- What a word opens is read first, perhaps with members behind it. -/
theorem primary_named {r : Reader Operand} {s : State} (kind : s.token.kind = .identifier)
    (opens : named expression env s = r s) :
    primary expression env s =
      (do
        let o ← r
        postfixesUpTo expression env (← remaining) o) s := by
  obtain ⟨⟨_, word, pos⟩, rest, cache⟩ := s
  cases kind
  have start : primaryStart expression env ⟨⟨.identifier, word, pos⟩, rest, cache⟩ = r _ := opens
  show (primaryStart expression env >>= _) _ = _
  simp only [Bind.bind, EStateM.bind, start]

theorem named_iif {pos : Nat} {rest : TokenRun} :
    named expression env ⟨⟨.identifier, "iif", pos⟩, rest, cache⟩ =
      iif expression env ⟨⟨.identifier, "iif", pos⟩, rest, cache⟩ := by
  have word : ∀ w, isWord ⟨.identifier, "iif", pos⟩ w = Text.sameIgnoringCase "iif" w := fun _ => rfl
  rw [named]
  show (if isWord ⟨.identifier, "iif", pos⟩ "true" = true then _ else _ : Reader Operand) _ = _
  simp only [word]
  rfl

/-- An operand that fails is no test. -/
theorem binaryOf_error {r : Reader Operand} {s t : State} {e : Diagnostic}
    (fails : r s = .error e t) : binaryOf r s = .error e t := by
  have joins : ∀ {r : Reader Operand} (level : Precedence), r s = .error e t →
      joined level r s = .error e t := fun level fails => bind_of_error fails
  exact joins _ (joins _ (joins _ (joins _ (joins _ fails))))

/-- No operand begins with a closing parenthesis. -/
theorem binaryOf_closeParen {n : Nat} {s s' : State} {o : Operand}
    (reads : binaryOf (operandAt n env) s = .ok o s') : s.token.kind ≠ .closeParen := by
  intro kind
  obtain ⟨⟨_, word, pos⟩, rest, cache⟩ := s
  cases kind
  obtain ⟨operand, same⟩ := operandAt_eq n
  have fails : operandAt n env ⟨⟨.closeParen, word, pos⟩, rest, cache⟩ =
      .error ⟨.expressionExpected, pos⟩ ⟨⟨.closeParen, word, pos⟩, rest, cache⟩ := by
    rw [same]
    rfl
  cases (binaryOf_error fails).symm.trans reads

/-- A primary expression is an expression, if it ends there. -/
theorem expressionAt_primary {n : Nat} {s : State} (noOperator : s.token.unaryOp? = none)
    (ends : ∀ o s', primary (expressionAt n) env s = .ok o s' →
      Level.conditional.StopsAt s'.token) :
    expressionAt (n + 1) env s = primary (expressionAt n) env s := by
  obtain ⟨operand, same⟩ := operandAt_eq n
  have looked : token s = .ok s.token s := rfl
  have opens : operandAt n env s = primary (expressionAt n) env s := by
    rw [same, unaryOf, bind_of_ok looked, noOperator]
  cases read : primary (expressionAt n) env s with
  | ok o s' => exact expressionOf_operand (opens.trans read) (ends o s' read)
  | error e s' => exact (bind_of_ok looked).trans (bind_of_error (binaryOf_error (opens.trans read)))

/-- What a word opens is an expression, if it ends there. -/
theorem expressionAt_named {n : Nat} {r : Reader Operand} {s : State}
    (kind : s.token.kind = .identifier) (noOperator : s.token.unaryOp? = none)
    (opens : named (expressionAt n) env s = r s)
    (ends : ∀ o s', r s = .ok o s' → Level.conditional.StopsAt s'.token) :
    expressionAt (n + 1) env s = r s := by
  have alone : primary (expressionAt n) env s = r s := by
    rw [primary_named kind opens]
    cases read : r s with
    | ok o s' =>
        rw [bind_of_ok read]
        exact postfixesUpTo_ends (ends o s' read).noMember env _ o
    | error e s' => exact bind_of_error read
  rw [expressionAt_primary noOperator fun o s' read => ends o s' (alone.symm.trans read), alone]

/-- An expression that begins with the word is no more than that, if it ends there. -/
theorem expressionAt_iif {n : Nat} {pos : Nat} {rest : TokenRun}
    (ends : ∀ o s, iif (expressionAt n) env ⟨⟨.identifier, "iif", pos⟩, rest, cache⟩ = .ok o s →
      Level.conditional.StopsAt s.token) :
    expressionAt (n + 1) env ⟨⟨.identifier, "iif", pos⟩, rest, cache⟩ =
      iif (expressionAt n) env ⟨⟨.identifier, "iif", pos⟩, rest, cache⟩ :=
  expressionAt_named rfl (unaryOp?_identifier (by decide) pos) named_iif ends

end Spellings

/-! ## Three texts -/

/-- Three texts are a test and two branches, for which so many levels are enough. -/
structure Parts (env : Env) (n : Nat) (test whenTrue whenFalse : String) : Prop where
  test : Complete (binaryOf (operandAt n env)) test
  whenTrue : Complete (expressionAt (n + 1) env) whenTrue
  whenFalse : Complete (expressionAt (n + 1) env) whenFalse

/-- What the three texts are by themselves, read one after another. -/
def inTurn (env : Env) (n : Nat) (test whenTrue whenFalse : String) :
    EStateM Problem RecordCache (Operand × Operand × Operand) := do
  let test ← (binaryOf (operandAt n env)).alone test
  let whenTrue ← (expressionAt (n + 1) env).alone whenTrue
  let whenFalse ← (expressionAt (n + 1) env).alone whenFalse
  return (test, whenTrue, whenFalse)

variable {env env' : Env} {n : Nat} {text : String} {front : List Char} {t : Token}
  {rest : TokenRun} {p : Site}

/-- A test stands at every site. -/
theorem Complete.testAt (complete : Complete (binaryOf (operandAt n env)) text)
    (names : env.SameNames env') (cuts : Cuts front text.toList (.token t rest)) (k l : Nat)
    (cache : RecordCache) :
    Meets (Lands p.after) ((binaryOf (operandAt (n + k) env')).alone text cache)
      (binaryOf (operandAt (n + l) env') ⟨t, rest.followedBy p.behind, cache⟩) := by
  have blind := fun n env => binaryOf_blind ((levels_blind n).2 env)
  exact complete.site (blind _ _) (blind _ _) cuts (fun _ s => binaryOf_lockstep
    (levels_lockstep (Nat.le_refl 1) (.inl rfl) n k l).2 env env' s names) cache

/-- A branch stands where no choice follows. -/
theorem Complete.branchAt (complete : Complete (expressionAt (n + 1) env) text)
    (names : env.SameNames env') (cuts : Cuts front text.toList (.token t rest))
    (noChoice : p.NoChoice) (k : Nat) (cache : RecordCache) :
    Meets (Lands p.after) ((expressionAt (n + k + 1) env').alone text cache)
      (expressionAt (n + k + 1) env' ⟨t, rest.followedBy p.behind, cache⟩) := by
  have blind := fun n => (levels_blind n).1
  rw [Nat.add_right_comm]
  have ended : ∀ pos, (Site.atEnd pos).NoChoice := fun _ same => nomatch same
  exact complete.site (blind _ _) (blind _ _) cuts (fun pos s => (levels_lockstep (Nat.zero_le 1)
    (.inr ⟨ended pos, noChoice⟩) (n + 1) k k).1 env env' s names) cache

/-- Where a test stands there is a first token. -/
theorem Complete.testOpens (complete : Complete (binaryOf (operandAt n env)) text)
    {run : TokenRun} (cuts : Cuts front text.toList run) :
    ∃ t rest, run = .token t rest ∧ rest.error? = none ∧ t.kind ≠ .closeParen := by
  have passes := fun s => binaryOf_lockstep (levels_lockstep (p := .atEnd 0) (q := .atEnd 0)
    (Nat.le_refl 1) (.inl rfl) n 0 0).2 env env s ⟨rfl, rfl⟩
  obtain ⟨t, rest, _, _, _, same, -, reads, -, clean⟩ :=
    complete.opens (binaryOf_blind ((levels_blind n).2 env))
      (fun s regular o s' read => (passes s regular o s' read).1) cuts
  exact ⟨t, rest, same, clean, binaryOf_closeParen reads⟩

/-- Where a branch stands there is a first token. -/
theorem Complete.branchOpens (complete : Complete (expressionAt n env) text)
    {run : TokenRun} (cuts : Cuts front text.toList run) :
    ∃ t rest, run = .token t rest ∧ rest.error? = none := by
  have passes := (levels_local (.atEnd 0 none) n).1 env
  obtain ⟨t, rest, _, _, _, same, -, -, -, clean⟩ := complete.opens ((levels_blind n).1 env)
    (fun s regular o s' read => (passes s regular o s' read).1) cuts
  exact ⟨t, rest, same, clean⟩

theorem Meets.stops {pos : Nat} {x : EStateM.Result Problem RecordCache _}
    {y : EStateM.Result Diagnostic State Operand} {o : Operand} {s : State}
    (meets : Meets (Chooses pos) x y) (read : y = .ok o s) :
    Level.conditional.StopsAt s.token := by
  cases meets with
  | error => cases read
  | ok chosen =>
      obtain ⟨last, rfl⟩ := chosen
      generalize Operand.conditional _ _ _ _ = made at read
      cases made with
      | error e => cases read
      | ok o =>
          cases read
          exact Level.stopsAt_of_kind (by simp [Token.atEnd])

namespace Parts

variable {test whenTrue whenFalse : String} {f₁ f₂ f₃ : List Char} {t₁ t₂ t₃ : Token}
  {r₁ r₂ r₃ : TokenRun} (parts : Parts env n test whenTrue whenFalse)
  (names : env.SameNames env') (cuts₁ : Cuts f₁ test.toList (.token t₁ r₁))
  (cuts₂ : Cuts f₂ whenTrue.toList (.token t₂ r₂))
  (cuts₃ : Cuts f₃ whenFalse.toList (.token t₃ r₃))
include parts names cuts₁ cuts₂ cuts₃

/-- Behind the test stands a question mark. -/
theorem choice (k i j last : Nat) (cache : RecordCache) :
    Meets (Chooses t₁.pos) (inTurn env' (n + k) test whenTrue whenFalse cache)
      (expressionAt (n + k + 2) env' ⟨t₁, r₁.followedBy (.token ⟨.question, "?", i⟩ (.token t₂
        (r₂.followedBy (.token ⟨.colon, ":", j⟩ (.token t₃ (r₃.followedBy (.done last))))))),
        cache⟩) := by
  let behind₂ : TokenRun := .token ⟨.colon, ":", j⟩ (.token t₃ (r₃.followedBy (.done last)))
  let behind₁ : TokenRun := .token ⟨.question, "?", i⟩ (.token t₂ (r₂.followedBy behind₂))
  let p₁ : Site := .before (.token _ _ : behind₁.Opens _ _) (by simp)
  let p₂ : Site := .before (.token _ _ : behind₂.Opens _ _) (by simp)
  let choose (test : Operand) : Reader Operand := do
    if ← isAt .question then
      next
      let whenTrue ← expressionAt (n + k + 1) env'
      skip .colon .colonExpected
      let whenFalse ← expressionAt (n + k + 1) env'
      check (Operand.conditional test whenTrue whenFalse t₁.pos)
    else return test
  have first := parts.test.testAt (p := p₁) names cuts₁ k (k + 1) cache
  refine .bind (g := choose) first fun a cache => ?_
  have second := parts.whenTrue.branchAt (p := p₂) names cuts₂ nofun k cache
  refine .bind second fun b cache => ?_
  have third := parts.whenFalse.branchAt (p := .atEnd last) names cuts₃ nofun k cache
  exact .bind third fun c cache => .ok ⟨last, rfl⟩

/-- The texts are the arguments of `iif`. -/
theorem iif (k pos i j l m last : Nat) (cache : RecordCache) :
    Meets (Chooses pos) (inTurn env' (n + k) test whenTrue whenFalse cache)
      (expressionAt (n + k + 2) env' ⟨⟨.identifier, "iif", pos⟩, .token ⟨.openParen, "(", i⟩
        (.token t₁ (r₁.followedBy (.token ⟨.comma, ",", j⟩ (.token t₂ (r₂.followedBy
          (.token ⟨.comma, ",", l⟩ (.token t₃ (r₃.followedBy
            (.token ⟨.closeParen, ")", m⟩ (.done last)))))))))), cache⟩) := by
  let behind₃ : TokenRun := .token ⟨.closeParen, ")", m⟩ (.done last)
  let behind₂ : TokenRun := .token ⟨.comma, ",", l⟩ (.token t₃ (r₃.followedBy behind₃))
  let behind₁ : TokenRun := .token ⟨.comma, ",", j⟩ (.token t₂ (r₂.followedBy behind₂))
  let p₁ : Site := .before (.token _ _ : behind₁.Opens _ _) (by simp)
  let p₂ : Site := .before (.token _ _ : behind₂.Opens _ _) (by simp)
  let p₃ : Site := .before (.token _ _ : behind₃.Opens _ _) (by simp)
  obtain ⟨_, _, ⟨⟩, clean, other⟩ := parts.test.testOpens cuts₁
  obtain ⟨steps, counted⟩ : ∃ steps, (r₁.followedBy behind₁).length + 1 = steps + 3 := by
    have long := TokenRun.length_followedBy_le clean behind₁
    have two : behind₁.length = (r₂.followedBy behind₂).length + 2 := rfl
    exact ⟨(r₁.followedBy behind₁).length - 2, by omega⟩
  have arguments : Meets (Chooses pos) (inTurn env' (n + k) test whenTrue whenFalse cache)
      (Source.iif (expressionAt (n + k + 1)) env'
        ⟨⟨.identifier, "iif", pos⟩, .token ⟨.openParen, "(", i⟩
          (.token t₁ (r₁.followedBy behind₁)), cache⟩) := by
    rw [iif_arguments rfl other, counted, itemsUpTo_following]
    have first := parts.test.testAt (p := p₁) names cuts₁ k k cache
    have first' : Meets (Lands p₁.after) _ (expressionAt (n + k + 1) env' _) :=
      expressionOf_meets (p := p₁) nofun first
    refine first'.bind fun a cache => ?_
    rw [following_comma (s := p₁.after cache) rfl rfl, itemsUpTo_following]
    have second := parts.whenTrue.branchAt (p := p₂) names cuts₂ nofun k cache
    refine second.bind fun b cache => ?_
    rw [following_comma (s := p₂.after cache) rfl rfl, itemsUpTo_following]
    have third := parts.whenFalse.branchAt (p := p₃) names cuts₃ nofun k cache
    refine third.bind fun c cache => ?_
    rw [following_last (s := p₃.after cache) nofun]
    exact .ok ⟨last, rfl⟩
  rw [expressionAt_iif fun o s read => arguments.stops read]
  exact arguments

end Parts

/-! ## The texts of the two spellings -/

namespace Parts

variable {test whenTrue whenFalse : String} (parts : Parts env n test whenTrue whenFalse)
  (names : env.SameNames env') (k : Nat)
include parts names

theorem choice_text : ∃ t rest,
    Token.scan (test ++ " ? " ++ whenTrue ++ " : " ++ whenFalse) = .token t rest ∧
    ((∀ c ∈ test.toList.head?, Text.isWhiteSpace c = false) → t.pos = 0) ∧
    ∀ cache, Meets (Chooses t.pos) (inTurn env' (n + k) test whenTrue whenFalse cache)
      (expressionAt (n + k + 2) env' ⟨t, rest, cache⟩) := by
  obtain ⟨run₁, cuts₁⟩ := exists_cuts [] test.toList
  obtain ⟨run₂, cuts₂⟩ := exists_cuts ([] ++ test.toList ++ [' '] ++ ['?'] ++ [' '])
    whenTrue.toList
  obtain ⟨run₃, cuts₃⟩ := exists_cuts ([] ++ test.toList ++ [' '] ++ ['?'] ++ [' '] ++
    whenTrue.toList ++ [' '] ++ [':'] ++ [' ']) whenFalse.toList
  obtain ⟨t₁, r₁, rfl, clean₁, -⟩ := parts.test.testOpens cuts₁
  obtain ⟨t₂, r₂, rfl, clean₂⟩ := parts.whenTrue.branchOpens cuts₂
  obtain ⟨t₃, r₃, rfl, clean₃⟩ := parts.whenFalse.branchOpens cuts₃
  have space : ∀ c ∈ [' '], Text.isWhiteSpace c := List.all_eq_true.mp (by decide)
  have question : (['?'], TokenKind.question) ∈ signTable := by decide
  have colon : ([':'], TokenKind.colon) ∈ signTable := by decide
  obtain ⟨last, ended⟩ := TokenRun.followedBy_done clean₃
  obtain ⟨j, behind⟩ := cuts₂.joined clean₂ space (separates_space _) colon (by decide) space
    cuts₃
  obtain ⟨i, whole⟩ := cuts₁.joined clean₁ space (separates_space _) question (by decide) space
    behind
  have spelled : (test ++ " ? " ++ whenTrue ++ " : " ++ whenFalse).toList = test.toList ++
      ([' '] ++ '?' :: ([' '] ++ (whenTrue.toList ++
        ([' '] ++ ':' :: ([' '] ++ whenFalse.toList))))) := by simp
  rw [← spelled] at whole
  refine ⟨t₁, _, whole.scan, cuts₁.first_pos, fun cache => ?_⟩
  have reads := parts.choice names cuts₁ cuts₂ cuts₃ k i j last cache
  rw [ended] at reads
  exact reads

theorem iif_text : ∃ t rest,
    Token.scan ("iif(" ++ test ++ ", " ++ whenTrue ++ ", " ++ whenFalse ++ ")") = .token t rest ∧
    t.pos = 0 ∧
    ∀ cache, Meets (Chooses t.pos) (inTurn env' (n + k) test whenTrue whenFalse cache)
      (expressionAt (n + k + 2) env' ⟨t, rest, cache⟩) := by
  obtain ⟨run₁, cuts₁⟩ := exists_cuts ("iif".toList ++ ['(']) test.toList
  obtain ⟨run₂, cuts₂⟩ := exists_cuts ("iif".toList ++ ['('] ++ test.toList ++ [] ++ [','] ++ [' '])
    whenTrue.toList
  obtain ⟨run₃, cuts₃⟩ := exists_cuts ("iif".toList ++ ['('] ++ test.toList ++ [] ++ [','] ++
    [' '] ++ whenTrue.toList ++ [] ++ [','] ++ [' ']) whenFalse.toList
  obtain ⟨t₁, r₁, rfl, clean₁, -⟩ := parts.test.testOpens cuts₁
  obtain ⟨t₂, r₂, rfl, clean₂⟩ := parts.whenTrue.branchOpens cuts₂
  obtain ⟨t₃, r₃, rfl, clean₃⟩ := parts.whenFalse.branchOpens cuts₃
  have space : ∀ c ∈ [' '], Text.isWhiteSpace c := List.all_eq_true.mp (by decide)
  have none : ∀ c ∈ ([] : List Char), Text.isWhiteSpace c := nofun
  have apart : ∀ {c : Char}, c ∈ [')', ','] → ∀ d ∈ ([] ++ [c]).head?, Separates d := by
    rintro c mem _ ⟨⟩
    exact .of_closing mem
  have opening : (['('], TokenKind.openParen) ∈ signTable := by decide
  have comma : ([','], TokenKind.comma) ∈ signTable := by decide
  have closing : ([')'], TokenKind.closeParen) ∈ signTable := by decide
  obtain ⟨m, behind₃⟩ := cuts₃.joined clean₃ none (apart (by simp)) closing (by decide) none
    (.done none)
  obtain ⟨l, behind₂⟩ := cuts₂.joined clean₂ none (apart (by simp)) comma (by decide) space behind₃
  obtain ⟨j, behind₁⟩ := cuts₁.joined clean₁ none (apart (by simp)) comma (by decide) space behind₂
  have opened : Cuts ([] ++ [] ++ "iif".toList) _ _ := .sign opening (by decide) behind₁
  have same : Text.sameIgnoringCase "iif" "iif" := by decide
  have word := isIdentifier_of_word same (by decide) (by decide)
  have whole := Cuts.token none (word.lexeme (breaks_cons.mpr (by decide))) opened
  have spelled : ("iif(" ++ test ++ ", " ++ whenTrue ++ ", " ++ whenFalse ++ ")").toList =
      [] ++ ("iif".toList ++ '(' :: (test.toList ++ ([] ++ ',' :: ([' '] ++ (whenTrue.toList ++
        ([] ++ ',' :: ([' '] ++ (whenFalse.toList ++ ([] ++ ')' :: ([] ++ [])))))))))) := by simp
  rw [← spelled] at whole
  refine ⟨_, _, whole.scan, rfl, fun cache => ?_⟩
  exact parts.iif names cuts₁ cuts₂ cuts₃ k 0 3 j l m _ cache

end Parts

/-! ## Whole texts -/

/-- An operand goes to the type that is asked for, if one is. -/
def asked (resultTy : Option Ty) (pos : Nat) (o : Operand) : Except Diagnostic Expr :=
  match resultTy with
  | none => .ok o.expr
  | some t =>
    match o.promote? t true with
    | some o => .ok o.expr
    | none => .error ⟨.typeMismatch t.toText, pos⟩

theorem asked_unplaced (resultTy : Option Ty) (pos pos' : Nat) (o : Operand) :
    unplaced (asked resultTy pos o) = unplaced (asked resultTy pos' o) := by
  unfold asked
  repeat' split
  all_goals rfl

/-- A whole text is an expression in the type that is asked for. -/
theorem wholeExpression_asked (resultTy : Option Ty) (env : Env) :
    wholeExpression resultTy env = do
      let pos := (← token).pos
      let o ← expressionAt env.maxDepth env
      let e ← check (asked resultTy pos o)
      expect .endOfText .syntaxError
      return e := by
  unfold wholeExpression
  refine bind_congr fun t => bind_congr fun o => ?_
  unfold asked
  cases resultTy with
  | none => rfl
  | some t =>
      simp only
      cases o.promote? t true <;> rfl

/-- Three operands are known, and what is read is the conditional of them in the type that is asked
for, with its diagnostics at `pos`. -/
inductive ReadsAs (resultTy : Option Ty) (pos : Nat) :
    EStateM.Result Problem RecordCache (Operand × Operand × Operand) →
    Except Diagnostic Expr × RecordCache → Prop where
  | ok (test whenTrue whenFalse : Operand) (cache : RecordCache) :
      ReadsAs resultTy pos (.ok (test, whenTrue, whenFalse) cache)
        (Operand.conditional test whenTrue whenFalse pos >>= asked resultTy pos, cache)
  | error (e : Diagnostic) (cache : RecordCache) :
      ReadsAs resultTy pos (.error e.problem cache) (.error e, cache)

theorem readExpr_chosen {c : Context} (host : Env.ofHost c.params c.values c.maxDepth = .ok env)
    (scanned : Token.scan text = .token t rest)
    {x : EStateM.Result Problem RecordCache (Operand × Operand × Operand)}
    (meets : Meets (Chooses t.pos) x (expressionAt env.maxDepth env ⟨t, rest, c.cache⟩))
    (resultTy : Option Ty) : ReadsAs resultTy t.pos x (readExpr c resultTy text) := by
  let finish (o : Operand) : Reader Expr := do
    let e ← check (asked resultTy t.pos o)
    expect .endOfText .syntaxError
    return e
  have start : (do next; wholeExpression resultTy env) ⟨Token.atEnd 0, .token t rest, c.cache⟩ =
      (expressionAt env.maxDepth env >>= finish) ⟨t, rest, c.cache⟩ := by
    rw [wholeExpression_asked]
    rfl
  simp only [readExpr, read, host, scanned, start]
  generalize read : expressionAt env.maxDepth env ⟨t, rest, c.cache⟩ = y at meets
  cases meets with
  | error e s =>
      rw [bind_of_error read]
      exact .error e s.cache
  | @ok operands cache _ chosen =>
      obtain ⟨test, whenTrue, whenFalse⟩ := operands
      obtain ⟨last, rfl⟩ := chosen
      have whole : ReadsAs resultTy t.pos _ _ := .ok test whenTrue whenFalse cache
      generalize Operand.conditional test whenTrue whenFalse t.pos = made at read whole
      cases made with
      | error e =>
          rw [bind_of_error read]
          exact whole
      | ok o =>
          rw [bind_of_ok read]
          simp only [finish]
          change ReadsAs _ _ _ (asked resultTy t.pos o, cache) at whole
          cases goes : asked resultTy t.pos o <;> rwa [goes] at whole

/-! ## Three accepted texts -/

/-- The text is accepted as an expression. -/
def Context.accepts (c : Context) (text : String) : Bool := (readExpr c none text).1.isOk

/-- The texts are accepted one after another, each with the record types that there are then. -/
def Context.acceptsInTurn (c : Context) : List String → Bool
  | [] => true
  | text :: texts =>
    match readExpr c none text with
    | (.ok _, cache) => { c with cache }.acceptsInTurn texts
    | (.error _, _) => false

/-- Behind the operators of the text there is a choice, which belongs to no part of it. -/
def Context.hasChoice (c : Context) (text : String) : Bool :=
  match Env.ofHost c.params c.values c.maxDepth with
  | .ok env =>
    match (do next; binaryOf (operandAt (c.maxDepth - 1) env)) (c.start text) with
    | .ok _ s => s.token.kind == .question
    | .error _ _ => false
  | .error _ => false

section Accepted

variable {c : Context} {e : Expr} {cache after : RecordCache}

theorem Context.accepts_iff :
    c.accepts text ↔ ∃ e after, readExpr c none text = (.ok e, after) := by
  unfold Context.accepts
  obtain ⟨result, after⟩ := readExpr c none text
  cases result with
  | ok e => exact ⟨fun _ => ⟨e, after, rfl⟩, fun _ => rfl⟩
  | error e => exact ⟨nofun, nofun⟩

theorem Context.acceptsInTurn_cons {texts : List String} : c.acceptsInTurn (text :: texts) ↔
    ∃ e after, readExpr c none text = (.ok e, after) ∧
      { c with cache := after }.acceptsInTurn texts := by
  rw [Context.acceptsInTurn]
  obtain ⟨result, after⟩ := readExpr c none text
  cases result with
  | ok e =>
      refine ⟨fun later => ⟨e, after, rfl, later⟩, ?_⟩
      rintro ⟨_, _, ⟨⟩, later⟩
      exact later
  | error e => exact ⟨nofun, nofun⟩

theorem expressionAt_reads (host : Env.ofHost c.params c.values c.maxDepth = .ok env)
    (levels : c.maxDepth = n + 1)
    (accepted : readExpr { c with cache } none text = (.ok e, after)) :
    ∃ o s, (do next; expressionAt (n + 1) env) ⟨Token.atEnd 0, Token.scan text, cache⟩ = .ok o s ∧
      s.token.kind = .endOfText ∧ s.cache = after := by
  obtain ⟨o, s, reads, atEnd, -, kept⟩ := (readExpr_ok_iff (c := { c with cache }) host).mp accepted
  rw [Env.ofHost_maxDepth host, levels] at reads
  exact ⟨o, s, reads, atEnd, kept⟩

/-- Without a choice an expression is what its operators make of it. -/
theorem binaryOf_reads (host : Env.ofHost c.params c.values c.maxDepth = .ok env)
    (levels : c.maxDepth = n + 1)
    (accepted : readExpr { c with cache } none text = (.ok e, after))
    (plain : { c with cache }.hasChoice text = false) :
    ∃ o s, (do next; binaryOf (operandAt n env)) ⟨Token.atEnd 0, Token.scan text, cache⟩ =
      .ok o s ∧ s.token.kind = .endOfText ∧ s.cache = after := by
  obtain ⟨o, s, reads, atEnd, kept⟩ := expressionAt_reads host levels accepted
  obtain ⟨u, s₀, opened, reads⟩ := exists_of_bind reads
  obtain ⟨t, s₁, ⟨⟩, reads⟩ := exists_of_bind reads
  obtain ⟨test, s₂, joined, reads⟩ := exists_of_bind reads
  have whole : (do next; binaryOf (operandAt n env)) ⟨Token.atEnd 0, Token.scan text, cache⟩ =
      .ok test s₂ := (bind_of_ok opened).trans joined
  obtain ⟨choice, s₃, ⟨⟩, reads⟩ := exists_of_bind reads
  have other : (s₂.token.kind == .question) = false := by
    simp only [Context.hasChoice, Context.start, host] at plain
    simpa only [levels, Nat.add_sub_cancel, whole] using plain
  rw [other, if_neg Bool.false_ne_true] at reads
  cases reads
  exact ⟨_, _, whole, atEnd, kept⟩

/-- A text that is accepted has a level at least. -/
theorem exists_levels (accepted : c.accepts text) :
    ∃ env n, Env.ofHost c.params c.values c.maxDepth = .ok env ∧ c.maxDepth = n + 1 := by
  obtain ⟨e, after, read⟩ := Context.accepts_iff.mp accepted
  obtain ⟨env, host⟩ := exists_host read
  cases levels : c.maxDepth with
  | succ n => exact ⟨env, n, levels ▸ host, rfl⟩
  | zero =>
      obtain ⟨o, s, reads, -⟩ := (readExpr_ok_iff host).mp read
      rw [Env.ofHost_maxDepth host, levels] at reads
      obtain ⟨u, t, -, fails⟩ := exists_of_bind reads
      cases fails

/-- Three accepted texts, of which the first has no choice, are a test and two branches. -/
theorem exists_parts {test whenTrue whenFalse : String} {cache₁ cache₂ cache₃ : RecordCache}
    (first : { c with cache := cache₁ }.accepts test)
    (plain : { c with cache := cache₁ }.hasChoice test = false)
    (second : { c with cache := cache₂ }.accepts whenTrue)
    (third : { c with cache := cache₃ }.accepts whenFalse) :
    ∃ env n, Env.ofHost c.params c.values c.maxDepth = .ok env ∧ c.maxDepth = n + 1 ∧
      Parts env n test whenTrue whenFalse := by
  obtain ⟨env, n, host, levels⟩ := exists_levels first
  obtain ⟨_, _, read₁⟩ := Context.accepts_iff.mp first
  obtain ⟨_, _, read₂⟩ := Context.accepts_iff.mp second
  obtain ⟨_, _, read₃⟩ := Context.accepts_iff.mp third
  obtain ⟨o₁, s₁, reads₁, atEnd₁, -⟩ := binaryOf_reads host levels read₁ plain
  obtain ⟨o₂, s₂, reads₂, atEnd₂, -⟩ := expressionAt_reads host levels read₂
  obtain ⟨o₃, s₃, reads₃, atEnd₃, -⟩ := expressionAt_reads host levels read₃
  exact ⟨env, n, host, levels, ⟨_, o₁, s₁, reads₁, atEnd₁⟩, ⟨_, o₂, s₂, reads₂, atEnd₂⟩,
    ⟨_, o₃, s₃, reads₃, atEnd₃⟩⟩

/-- With a level more both spellings come to what the three texts are in turn. -/
theorem Parts.spellings {test whenTrue whenFalse : String}
    (parts : Parts env n test whenTrue whenFalse)
    (host : Env.ofHost c.params c.values c.maxDepth = .ok env) (k : Nat) (resultTy : Option Ty) :
    ∃ pos, ((∀ ch ∈ test.toList.head?, Text.isWhiteSpace ch = false) → pos = 0) ∧
      ReadsAs resultTy pos
        (inTurn (env.limited (n + k + 2)) (n + k) test whenTrue whenFalse c.cache)
        (readExpr { c with maxDepth := n + k + 2 } resultTy
          (test ++ " ? " ++ whenTrue ++ " : " ++ whenFalse)) ∧
      ReadsAs resultTy 0
        (inTurn (env.limited (n + k + 2)) (n + k) test whenTrue whenFalse c.cache)
        (readExpr { c with maxDepth := n + k + 2 } resultTy
          ("iif(" ++ test ++ ", " ++ whenTrue ++ ", " ++ whenFalse ++ ")")) := by
  have names : env.SameNames (env.limited (n + k + 2)) := ⟨rfl, rfl⟩
  have host' : Env.ofHost c.params c.values (n + k + 2) = .ok (env.limited (n + k + 2)) := by
    rw [Env.ofHost_limited c.params c.values c.maxDepth, host]
    rfl
  obtain ⟨t, rest, scanned, visible, meets⟩ := parts.choice_text names k
  obtain ⟨t', rest', scanned', atOnce, meets'⟩ := parts.iif_text names k
  let c' : Context := { c with maxDepth := n + k + 2 }
  refine ⟨t.pos, visible, readExpr_chosen (c := c') host' scanned (meets _) resultTy, ?_⟩
  rw [← atOnce]
  exact readExpr_chosen (c := c') host' scanned' (meets' _) resultTy

theorem ReadsAs.unplaced_eq {resultTy : Option Ty} {pos pos' : Nat}
    {x : EStateM.Result Problem RecordCache (Operand × Operand × Operand)}
    {y z : Except Diagnostic Expr × RecordCache} (h : ReadsAs resultTy pos x y)
    (h' : ReadsAs resultTy pos' x z) : y.map unplaced id = z.map unplaced id := by
  cases h with
  | ok test whenTrue whenFalse cache =>
      cases h' with
      | ok =>
          have same := Operand.conditional_unplaced test whenTrue whenFalse pos pos'
          have goes := asked_unplaced resultTy pos pos'
          simp only [Prod.map, unplaced_bind, same, goes]
  | error e cache =>
      generalize same : e.problem = problem at h'
      cases h' with
      | error e' => simp [same]

theorem ReadsAs.eq {resultTy : Option Ty} {pos : Nat} {operands : Operand × Operand × Operand}
    {y z : Except Diagnostic Expr × RecordCache} (h : ReadsAs resultTy pos (.ok operands cache) y)
    (h' : ReadsAs resultTy pos (.ok operands cache) z) : y = z := by
  cases h with
  | ok =>
      cases h' with
      | ok => rfl

theorem alone_deeper {r r' : Reader Operand} {o : Operand} {s : State}
    (reads : (do next; r) ⟨Token.atEnd 0, Token.scan text, cache⟩ = .ok o s)
    (deeper : Reader.Deepens r r') : r'.alone text cache = .ok o s.cache := by
  have deeper' : Reader.Deepens (do next; r) (do next; r') := .andThen fun _ => deeper
  rcases deeper' ⟨Token.atEnd 0, Token.scan text, cache⟩ with same | ⟨_, _, stopped, -⟩
  · rw [Reader.alone, same, reads]
  · cases stopped.symm.trans reads

/-- Texts that are accepted in turn are three operands. -/
theorem inTurn_accepted {test whenTrue whenFalse : String}
    (host : Env.ofHost c.params c.values c.maxDepth = .ok env) (levels : c.maxDepth = n + 1)
    (accepted : c.acceptsInTurn [test, whenTrue, whenFalse]) (plain : c.hasChoice test = false)
    (d k : Nat) : ∃ operands later,
      inTurn (env.limited d) (n + k) test whenTrue whenFalse c.cache = .ok operands later := by
  obtain ⟨_, cache₁, read₁, later⟩ := Context.acceptsInTurn_cons.mp accepted
  obtain ⟨_, cache₂, read₂, later⟩ := Context.acceptsInTurn_cons.mp later
  obtain ⟨_, cache₃, read₃, -⟩ := Context.acceptsInTurn_cons.mp later
  obtain ⟨o₁, s₁, reads₁, -, rfl⟩ := binaryOf_reads (c := c) host levels read₁ plain
  obtain ⟨o₂, s₂, reads₂, -, rfl⟩ := expressionAt_reads (c := c) host levels read₂
  obtain ⟨o₃, s₃, reads₃, -, rfl⟩ := expressionAt_reads (c := c) host levels read₃
  have test := alone_deeper reads₁
    (binaryOf_deepens ((levels_deepen d (Nat.le_add_right n k)).2 env))
  have branch := (levels_deepen d (Nat.succ_le_succ (Nat.le_add_right n k))).1 env
  refine ⟨(o₁, o₂, o₃), s₃.cache, ?_⟩
  simp only [inTurn, Bind.bind, EStateM.bind, test, alone_deeper reads₂ branch,
    alone_deeper reads₃ branch]
  rfl

end Accepted

/-- A conditional is accepted with its branches in either order, in the same type, and chooses the
same value where the test is negated as well. Its two spellings come to the same tree or fail with
the same problem. Where the texts are accepted in turn and no blank comes first, this is reported at
the same position. -/
theorem conditionals_agree :
    (∀ (test a b : Operand) (pos pos' : Nat) (sign : Token),
      ((∃ c, Operand.conditional test a b pos = .ok c) ↔
        ∃ c, Operand.conditional test b a pos' = .ok c) ∧
      ∀ c, Operand.conditional test a b pos = .ok c → ∃ swapped negation turned,
        Operand.conditional test b a pos' = .ok swapped ∧ swapped.ty = c.ty ∧
        Operand.unary sign .not test = .ok negation ∧
        Operand.conditional negation b a pos' = .ok turned ∧ turned.ty = c.ty ∧
        ∀ host scope, (∀ v, Expr.eval host test.expr scope = .ok v → ∃ x, v = .boolean x) →
          Expr.eval host turned.expr scope = Expr.eval host c.expr scope) ∧
    (∀ (c : Context) (test whenTrue whenFalse : String) (cache₁ cache₂ cache₃ : RecordCache)
      (d : Nat) (resultTy : Option Ty), { c with cache := cache₁ }.accepts test →
      { c with cache := cache₁ }.hasChoice test = false →
      { c with cache := cache₂ }.accepts whenTrue → { c with cache := cache₃ }.accepts whenFalse →
      c.maxDepth < d →
      (readExpr { c with maxDepth := d } resultTy
        ("iif(" ++ test ++ ", " ++ whenTrue ++ ", " ++ whenFalse ++ ")")).map unplaced id =
      (readExpr { c with maxDepth := d } resultTy
        (test ++ " ? " ++ whenTrue ++ " : " ++ whenFalse)).map unplaced id) ∧
    ∀ (c : Context) (test whenTrue whenFalse : String) (d : Nat) (resultTy : Option Ty),
      c.acceptsInTurn [test, whenTrue, whenFalse] → c.hasChoice test = false →
      (∀ ch ∈ test.toList.head?, Text.isWhiteSpace ch = false) → c.maxDepth < d →
      readExpr { c with maxDepth := d } resultTy
        ("iif(" ++ test ++ ", " ++ whenTrue ++ ", " ++ whenFalse ++ ")") =
      readExpr { c with maxDepth := d } resultTy
        (test ++ " ? " ++ whenTrue ++ " : " ++ whenFalse) := by
  refine ⟨fun test a b pos pos' sign => ⟨⟨?_, ?_⟩, fun c made => ?_⟩, ?_, ?_⟩
  · rintro ⟨c, made⟩
    obtain ⟨swapped, -, -, other, -⟩ := Operand.conditional_turned made pos' sign
    exact ⟨swapped, other⟩
  · rintro ⟨c, made⟩
    obtain ⟨swapped, -, -, other, -⟩ := Operand.conditional_turned made pos sign
    exact ⟨swapped, other⟩
  · exact Operand.conditional_turned made pos' sign
  · intro c test whenTrue whenFalse cache₁ cache₂ cache₃ d resultTy first plain second third more
    obtain ⟨env, n, host, levels, parts⟩ := exists_parts first plain second third
    obtain ⟨k, rfl⟩ : ∃ k, d = n + k + 2 := ⟨d - (n + 2), by omega⟩
    obtain ⟨pos, -, choice, iif⟩ := parts.spellings host k resultTy
    exact iif.unplaced_eq choice
  · intro c test whenTrue whenFalse d resultTy accepted plain visible more
    obtain ⟨e₁, cache₁, read₁, later⟩ := Context.acceptsInTurn_cons.mp accepted
    obtain ⟨e₂, cache₂, read₂, later⟩ := Context.acceptsInTurn_cons.mp later
    obtain ⟨e₃, cache₃, read₃, -⟩ := Context.acceptsInTurn_cons.mp later
    obtain ⟨env, n, host, levels, parts⟩ := exists_parts
      (Context.accepts_iff.mpr ⟨e₁, cache₁, read₁⟩) plain
      (Context.accepts_iff.mpr ⟨e₂, cache₂, read₂⟩) (Context.accepts_iff.mpr ⟨e₃, cache₃, read₃⟩)
    obtain ⟨k, rfl⟩ : ∃ k, d = n + k + 2 := ⟨d - (n + 2), by omega⟩
    obtain ⟨pos, atOnce, choice, iif⟩ := parts.spellings host k resultTy
    obtain rfl := atOnce visible
    obtain ⟨operands, later, known⟩ := inTurn_accepted host levels accepted plain (n + k + 2) k
    rw [known] at choice iif
    exact iif.eq choice

theorem conditionals_agree_records :
    let c : Context := ⟨[], [], 2, .empty none⟩
    let yes := Operand.plain (.constant (.boolean true) .boolean)
    let word := Operand.plain (.constant (.string "a") .string)
    (∃ made turned, Operand.conditional yes word .nullLiteral 0 = .ok made ∧
      Operand.conditional (.plain (.unary .not yes.expr)) .nullLiteral word 0 = .ok turned ∧
      turned.ty = made.ty ∧
      ∀ host scope, Expr.eval host turned.expr scope = Expr.eval host made.expr scope) ∧
    (readExpr { c with maxDepth := 3 } none
        ("iif(" ++ " 1 < 2" ++ ", " ++ "1" ++ ", " ++ "true" ++ ")")).map unplaced id =
      (readExpr { c with maxDepth := 3 } none
        (" 1 < 2" ++ " ? " ++ "1" ++ " : " ++ "true")).map unplaced id ∧
    readExpr { c with maxDepth := 3 } none
        ("iif(" ++ "1 < 2" ++ ", " ++ "new(1 as A)" ++ ", " ++ "null" ++ ")") =
      readExpr { c with maxDepth := 3 } none
        ("1 < 2" ++ " ? " ++ "new(1 as A)" ++ " : " ++ "null") := by
  intro c yes word
  refine ⟨?_, ?_, ?_⟩
  · obtain ⟨made, here⟩ : ∃ made, Operand.conditional yes word .nullLiteral 0 = .ok made := ⟨_, rfl⟩
    obtain ⟨-, negation, turned, -, -, negated, other, same, agrees⟩ :=
      (conditionals_agree.1 yes word .nullLiteral 0 0 (Token.atEnd 0)).2 made here
    cases (Operand.unary_not rfl _).symm.trans negated
    refine ⟨made, turned, here, other, same, fun host scope => agrees host scope ?_⟩
    intro v value
    rw [show yes.expr = .constant (.boolean true) .boolean from rfl, Expr.eval] at value
    cases value
    exact ⟨true, rfl⟩
  · exact conditionals_agree.2.1 c " 1 < 2" "1" "true" (.empty none) (.empty none) (.empty none) 3
      none (by decide +kernel) (by decide +kernel) (by decide +kernel) (by decide +kernel)
      (by decide)
  · exact conditionals_agree.2.2 c "1 < 2" "new(1 as A)" "null" 3 none (by decide +kernel)
      (by decide +kernel) (by rintro _ ⟨⟩; decide) (by decide)

end Source

end TypedExpr
