import TypedExpr.Source

/-! # Two readings that differ in positions

The same words read at other places. What a reader does does not depend on the positions of tokens
except that errors are reported at them. Each way to put readers together has one lemma, so that
two readings of a part of the grammar are compared in the order in which it is written.
-/

namespace TypedExpr

/-! ## Results without positions -/

/-- The outcome, of an error only the problem. -/
def unplaced {α : Type} (x : Except Diagnostic α) : Except Problem α :=
  x.mapError Diagnostic.problem

section Unplaced

variable {α β : Type}

@[simp] theorem unplaced_ok (a : α) : unplaced (.ok a) = .ok a := rfl

@[simp] theorem unplaced_error (e : Diagnostic) :
    unplaced (.error e : Except Diagnostic α) = .error e.problem := rfl

@[simp] theorem unplaced_pure (a : α) : unplaced (pure a) = .ok a := rfl

@[simp] theorem unplaced_bind (x : Except Diagnostic α) (f : α → Except Diagnostic β) :
    unplaced (x >>= f) = unplaced x >>= fun a => unplaced (f a) := by
  cases x <;> rfl

end Unplaced

/-! ## Alike tokens -/

/-- The same token at two places. -/
inductive Token.Alike : Token → Token → Prop where
  | mk (kind : TokenKind) (text : String) (pos pos' : Nat) :
      Alike ⟨kind, text, pos⟩ ⟨kind, text, pos'⟩

theorem Token.Alike.kind_eq {t u : Token} (h : t.Alike u) : t.kind = u.kind := by
  cases h
  rfl

/-- The same tokens at other places, with the same end. -/
inductive TokenRun.Alike : TokenRun → TokenRun → Prop where
  | done (pos pos' : Nat) : Alike (.done pos) (.done pos')
  | failed (problem : Problem) (pos pos' : Nat) :
      Alike (.failed ⟨problem, pos⟩) (.failed ⟨problem, pos'⟩)
  | token {t t' run run'} (head : t.Alike t') (tail : TokenRun.Alike run run') :
      Alike (.token t run) (.token t' run')

theorem TokenRun.Alike.length_eq {run run' : TokenRun} (h : run.Alike run') :
    run.length = run'.length := by
  induction h with
  | done | failed => rfl
  | token _ _ ih => exact congrArg (· + 1) ih

namespace Operand

variable {t u : Token} {l r o : Operand}

theorem ofInteger_unplaced (h : t.Alike u) : unplaced (ofInteger t) = unplaced (ofInteger u) := by
  cases h
  simp only [ofInteger]
  split <;> rfl

theorem ofReal_unplaced (h : t.Alike u) : unplaced (ofReal t) = unplaced (ofReal u) := by
  cases h
  simp only [ofReal]
  split <;> rfl

theorem ofQuoted_unplaced (h : t.Alike u) : unplaced (ofQuoted t) = unplaced (ofQuoted u) := by
  cases h
  simp only [ofQuoted]
  split
  · split <;> rfl
  · rfl

theorem property_unplaced (t : Ty) (target : Option Operand) (name : String) (pos pos' : Nat) :
    unplaced (property t target name pos) = unplaced (property t target name pos') := by
  simp only [property]
  split <;> rfl

theorem method_unplaced (t : Ty) (target : Option Operand) (name : String) (args : List Operand)
    (pos pos' : Nat) :
    unplaced (method t target name args pos) = unplaced (method t target name args pos') := by
  simp only [method]
  split
  · rfl
  · rfl
  · split
    · rfl
    · split <;> rfl

theorem aggregate_unplaced (source : Operand) (item : Parameter) (name : String)
    (args : List Operand) (pos pos' : Nat) :
    unplaced (source.aggregate item name args pos) =
      unplaced (source.aggregate item name args pos') := by
  simp only [aggregate]
  split
  · rfl
  · split <;> rfl

theorem index_unplaced (target : Operand) (args : List Operand) (pos pos' : Nat) :
    unplaced (target.index args pos) = unplaced (target.index args pos') := by
  simp only [index]
  split
  · split
    · split <;> rfl
    · rfl
  · split <;> rfl

theorem convert_unplaced (o : Operand) (t : Ty) (pos pos' : Nat) :
    unplaced (o.convert t pos) = unplaced (o.convert t pos') := by
  simp only [convert]
  repeat' split
  all_goals rfl

theorem construct_unplaced (t : Ty) (args : List Operand) (pos pos' : Nat) :
    unplaced (construct t args pos) = unplaced (construct t args pos') := by
  simp only [construct]
  split
  · rfl
  · rfl
  · split
    · exact convert_unplaced _ t pos pos'
    · rfl

theorem invoke_unplaced (l : Lambda) (args : List Operand) (pos pos' : Nat) :
    unplaced (invoke l args pos) = unplaced (invoke l args pos') := by
  simp only [invoke]
  split <;> rfl

theorem conditional_unplaced (test whenTrue whenFalse : Operand) (pos pos' : Nat) :
    unplaced (conditional test whenTrue whenFalse pos) =
      unplaced (conditional test whenTrue whenFalse pos') := by
  simp only [conditional]
  split
  · rfl
  · split
    · rfl
    · split <;> rfl

theorem unary_unplaced (h : t.Alike u) (op : UnaryOp) (o : Operand) :
    unplaced (unary t op o) = unplaced (unary u op o) := by
  cases h
  simp only [unary]
  split <;> rfl

theorem promoteBoth_unplaced (h : t.Alike u) (c : OperatorClass) (l r : Operand) :
    unplaced (promoteBoth c t l r) = unplaced (promoteBoth c u l r) := by
  cases h
  simp only [promoteBoth]
  split <;> rfl

theorem relate_unplaced (h : t.Alike u) (op : BinaryOp) (l r : Operand) :
    unplaced (relate t op l r) = unplaced (relate u op l r) := by
  have both := promoteBoth_unplaced h (OperatorClass.ofBinary op) l r
  cases h
  simp only [relate, relateReferences, relateEnums]
  repeat' split
  all_goals first | exact both | rfl

theorem compared_unplaced (h : t.Alike u) (op : BinaryOp) (l r : Operand) :
    unplaced (compared t op l r) = unplaced (compared u op l r) := by
  simp only [compared, unplaced_bind, relate_unplaced h]

theorem binary_unplaced (h : t.Alike u) (l r : Operand) :
    unplaced (binary t l r) = unplaced (binary u l r) := by
  have both := fun c => promoteBoth_unplaced h c l r
  have compares := fun op => compared_unplaced h op l r
  cases h with
  | mk kind text pos pos' =>
    have same : Token.binaryOp? ⟨kind, text, pos⟩ = Token.binaryOp? ⟨kind, text, pos'⟩ := rfl
    simp only [binary, same]
    split
    · rfl
    · split
      · rfl
      · split
        · exact compares _
        · simp only [unplaced_bind, both]

end Operand

namespace Source

/-- The same tokens ahead, and the same record types made. -/
structure State.Alike (s s' : State) : Prop where
  token : s.token.Alike s'.token
  rest : s.rest.Alike s'.rest
  cache : s.cache = s'.cache

namespace Reader

variable {α β γ δ : Type}

/-- Two results of readers in alike states, or two errors with one problem. -/
inductive Matching (R : α → β → Prop) :
    EStateM.Result Diagnostic State α → EStateM.Result Diagnostic State β → Prop where
  | ok {a b s s'} (result : R a b) (state : s.Alike s') : Matching R (.ok a s) (.ok b s')
  | error {e e' s s'} (problem : e.problem = e'.problem) (cache : s.cache = s'.cache) :
      Matching R (.error e s) (.error e' s')

/-- From alike states the readers go the same way. -/
def Agree (R : α → β → Prop) (r : Reader α) (r' : Reader β) : Prop :=
  ∀ s s', s.Alike s' → Matching R (r s) (r' s')

/-- Positions do not matter to the reader. -/
abbrev Blind (r : Reader α) : Prop := Agree Eq r r

/-- From matching results the readers go on the same way. -/
theorem Matching.andThen {R : α → β → Prop} {S : γ → δ → Prop} {r : Reader α} {r' : Reader β}
    {f : α → Reader γ} {f' : β → Reader δ} {s s' : State} (first : Matching R (r s) (r' s'))
    (later : ∀ a b, R a b → Agree S (f a) (f' b)) : Matching S ((r >>= f) s) ((r' >>= f') s') := by
  simp only [Bind.bind, EStateM.bind]
  generalize r s = x, r' s' = y at first
  cases first with
  | ok result state => exact later _ _ result _ _ state
  | error problem cache => exact .error problem cache

/-- Where the first part has the same result on both sides. -/
theorem Matching.andThenSame {S : γ → δ → Prop} {r r' : Reader α} {f : α → Reader γ}
    {f' : α → Reader δ} {s s' : State} (first : Matching Eq (r s) (r' s'))
    (later : ∀ a, Agree S (f a) (f' a)) : Matching S ((r >>= f) s) ((r' >>= f') s') := by
  refine first.andThen fun a b same => ?_
  subst same
  exact later a

namespace Agree

variable {R : α → β → Prop} {S : γ → δ → Prop}

theorem pure {a : α} {b : β} (h : R a b) : Agree R (Pure.pure a) (Pure.pure b) :=
  fun _ _ alike => .ok h alike

theorem bind {r : Reader α} {r' : Reader β} {f : α → Reader γ} {f' : β → Reader δ}
    (hr : Agree R r r') (hf : ∀ a b, R a b → Agree S (f a) (f' b)) :
    Agree S (r >>= f) (r' >>= f') :=
  fun s s' alike => (hr s s' alike).andThen hf

theorem thenSame {r r' : Reader α} {f : α → Reader γ} {f' : α → Reader δ} (hr : Agree Eq r r')
    (hf : ∀ a, Agree S (f a) (f' a)) : Agree S (r >>= f) (r' >>= f') :=
  fun s s' alike => (hr s s' alike).andThenSame hf

theorem ite {c : Prop} [Decidable c] {r s : Reader α} {r' s' : Reader β} (hr : Agree R r r')
    (hs : Agree R s s') : Agree R (if c then r else s) (if c then r' else s') := by
  split
  · exact hr
  · exact hs

theorem get : Agree State.Alike (MonadState.get : Reader State) MonadState.get :=
  fun _ _ alike => .ok alike alike

theorem set {s s' : State} (h : s.Alike s') :
    Agree Eq (MonadStateOf.set s : Reader PUnit) (MonadStateOf.set s') :=
  fun _ _ _ => .ok rfl h

theorem modify {f f' : State → State} (h : ∀ s s', s.Alike s' → (f s).Alike (f' s')) :
    Agree Eq (modifyGet fun s => (⟨⟩, f s) : Reader PUnit) (modifyGet fun s => (⟨⟩, f' s)) :=
  fun s s' alike => .ok rfl (h s s' alike)

theorem token : Agree Token.Alike token token := fun _ _ alike => .ok alike.token alike

theorem failAt (pos pos' : Nat) (p : Problem) : Agree R (failAt pos p) (failAt pos' p) :=
  fun _ _ alike => .error rfl alike.cache

theorem fail (p : Problem) : Agree R (fail p) (fail p) := token.bind fun _ _ _ => failAt _ _ p

theorem check {x y : Except Diagnostic α} (h : unplaced x = unplaced y) :
    Agree Eq (check x) (check y) := by
  cases x with
  | ok a =>
      cases y with
      | ok b =>
          cases h
          exact .pure rfl
      | error e => cases h
  | error e =>
      cases y with
      | ok b => cases h
      | error e' => exact fun _ _ alike => .error (Except.error.inj h) alike.cache

end Agree

theorem isAt_blind (kind : TokenKind) : Blind (isAt kind) := by
  refine .bind .token fun t u alike => ?_
  cases alike
  exact .pure rfl

theorem next_blind : Blind next := by
  rintro ⟨t, run, cache⟩ ⟨t', run', cache'⟩ ⟨token, rest, rfl⟩
  cases rest with
  | done => exact .ok rfl ⟨.mk _ _ _ _, .done _ _, rfl⟩
  | failed => exact .error rfl rfl
  | token head tail => exact .ok rfl ⟨head, tail, rfl⟩

theorem expect_blind (kind : TokenKind) (p : Problem) : Blind (expect kind p) :=
  (isAt_blind kind).thenSame fun _ => .ite (.pure rfl) (.fail p)

theorem skip_blind (kind : TokenKind) (p : Problem) : Blind (skip kind p) :=
  (expect_blind kind p).thenSame fun _ => next_blind

theorem remaining_blind : Blind remaining :=
  fun _ _ alike => .ok (congrArg (· + 1) alike.rest.length_eq) alike

theorem identifier_blind : Blind identifier := by
  refine (expect_blind _ _).thenSame fun _ => .bind .token fun t u alike => ?_
  cases alike
  exact .pure rfl

theorem itemsUpTo_blind {item : Reader α} (h : Blind item) (n : Nat) :
    Blind (itemsUpTo item n) := by
  induction n with
  | zero => exact h.thenSame fun _ => .pure rfl
  | succ n ih =>
      refine h.thenSame fun a => (isAt_blind _).thenSame fun comma => .ite ?_ (.pure rfl)
      exact next_blind.thenSame fun _ => ih.thenSame fun _ => .pure rfl

theorem items_blind {item : Reader α} (h : Blind item) : Blind (items item) :=
  remaining_blind.thenSame fun n => itemsUpTo_blind h n

theorem recordType_agree (shape : List Property) (pos pos' : Nat) :
    Agree Eq (recordType shape pos) (recordType shape pos') := by
  refine .bind .get fun s s' alike => ?_
  obtain ⟨token, rest, cache⟩ := alike
  rw [cache]
  split
  · exact .thenSame (.set ⟨token, rest, rfl⟩) fun _ => .pure rfl
  · exact .failAt _ _ _

end Reader
end Source
end TypedExpr
