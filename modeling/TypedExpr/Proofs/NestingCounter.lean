import TypedExpr.Proofs.NestingLimit

/-! # The grammar with a counter

The same grammar where the depth is a counter and the receiver of bare members a place that is
written to. An expression raises the counter and lowers it again behind itself; an operation on
items puts the item into the place of the receiver and what stood there back behind its arguments.
Whatever has been read, both are as they were, and the operand is the one that is read where the
levels left and the receiver are given from outside.
-/

namespace TypedExpr.Source

open Reader

/-- What is changed in place while a text is read. -/
structure Frame where
  depth : Nat
  receiver : Option Parameter
  nextId : Nat

/-- The meanings of names, with the receiver that stands in the frame. -/
def Frame.over (f : Frame) (env : Env) : Env :=
  { env with receiver := f.receiver, nextId := f.nextId }

/-- Readers that change the frame. -/
abbrev Counting (α : Type) := StateT Frame Reader α

namespace Counting

variable {α β : Type}

def itemsUpTo (item : Counting α) : Nat → Counting (List α)
  | 0 => do return [← item]
  | n + 1 => do
    let a ← item
    if ← isAt .comma then
      next
      let as ← itemsUpTo item n
      return a :: as
    else return [a]

def items (item : Counting α) : Counting (List α) := do itemsUpTo item (← remaining)

/-- One level deeper: the counter goes up and, behind the part, down again. -/
def nested (limit : Nat) (part : Counting α) : Counting α := do
  if (← get).depth ≥ limit then fail (.nestingTooDeep limit)
  else
    modify fun f => { f with depth := f.depth + 1 }
    let a ← part
    modify fun f => { f with depth := f.depth - 1 }
    return a

/-- A part in which bare members are those of an item, which has the next free number. -/
def withReceiver (item : Parameter) (part : Counting α) : Counting α := do
  let outer ← get
  set { outer with receiver := some item, nextId := outer.nextId + 1 }
  let a ← part
  modify fun f => { f with receiver := outer.receiver, nextId := outer.nextId }
  return a

/-! ## The rules -/

section Rules

variable (env : Env) (operand expression : Counting Operand)

def argumentList : Counting (List Operand) := do
  skip .openParen .openParenExpected
  let args ← if ← isAt .closeParen then pure [] else items expression
  skip .closeParen .closeParenOrCommaExpected
  return args

def memberAccess (t : Ty) (target : Option Operand) : Counting Operand := do
  let pos := (← token).pos
  let name ← identifier
  next
  if !(← isAt .openParen) then check (Operand.property t target name pos)
  else
    match target, Operand.itemTy? t with
    | some source, some element =>
      let item : Parameter := ⟨(← get).nextId, "", element⟩
      let args ← withReceiver item (argumentList expression)
      check (source.aggregate item name args pos)
    | _, _ =>
      let args ← argumentList expression
      check (Operand.method t target name args pos)

def elementAccess (target : Operand) : Counting Operand := do
  let pos := (← token).pos
  skip .openBracket .openParenExpected
  let args ← items expression
  skip .closeBracket .closeBracketOrCommaExpected
  check (target.index args pos)

def postfixesUpTo : Nat → Operand → Counting Operand
  | 0, o => pure o
  | n + 1, o => do
    if ← isAt .dot then
      next
      let o ← memberAccess expression o.ty (some o)
      postfixesUpTo n o
    else if ← isAt .openBracket then
      let o ← elementAccess expression o
      postfixesUpTo n o
    else pure o

def parenthesized : Counting Operand := do
  next
  let o ← expression
  skip .closeParen .closeParenOrOperatorExpected
  return o

def iif : Counting Operand := do
  let pos := (← token).pos
  next
  match ← argumentList expression with
  | [test, whenTrue, whenFalse] => check (Operand.conditional test whenTrue whenFalse pos)
  | _ => failAt pos .iifNeedsThreeArguments

def projectionItem : Counting (String × Expr) := do
  let pos := (← token).pos
  let e := (← expression).expr
  if (← token).isWord "as" then
    next
    let name ← identifier
    next
    return (name, e)
  else
    match e.memberName? with
    | some name => return (name, e)
    | none => failAt pos .missingAs

def projection : Counting Operand := do
  let pos := (← token).pos
  next
  skip .openParen .openParenExpected
  let fields ← items (projectionItem expression)
  skip .closeParen .closeParenOrCommaExpected
  let r ← recordType (fields.map fun (name, e) => ⟨name, e.ty⟩) pos
  return .plain (.newRecord r (fields.map (·.2)))

def typeAccess (p : Predefined) : Counting Operand := do
  let pos := (← token).pos
  next
  let t ← if ← isAt .question then typeAccess.nullableForm pos (.predefined p)
    else pure (.predefined p)
  if ← isAt .openParen then
    let args ← argumentList expression
    check (Operand.construct t args pos)
  else
    skip .dot .dotOrOpenParenExpected
    memberAccess expression t none

def symbol (external : External) : Counting Operand := do
  let t ← token
  let e ← match external with
    | .value v => pure (.constant v v.typeOf)
    | .expr e => pure e
    | .symbols _ => fail (.notAValue t.text)
  next
  match e with
  | .lambda l =>
    if ← isAt .openParen then
      let args ← argumentList expression
      check (Operand.invoke l args t.pos)
    else return .plain e
  | e => return .plain e

def named : Counting Operand := do
  let t ← token
  if t.isWord "true" then
    next
    return .plain (.constant (.boolean true) .boolean)
  else if t.isWord "false" then
    next
    return .plain (.constant (.boolean false) .boolean)
  else if t.isWord "null" then
    next
    return .nullLiteral
  else if t.isWord "it" then
    match (← get).receiver with
    | some p =>
      next
      return .plain (.parameter p)
    | none => fail .noItInScope
  else if t.isWord "iif" then iif expression
  else if t.isWord "new" then projection expression
  else
    match Predefined.ofName? t.text, env.symbol? t.text, (← get).receiver with
    | some p, _, _ => typeAccess expression p
    | none, some external, _ => symbol expression external
    | none, none, some p => memberAccess expression p.ty (some (.plain (.parameter p)))
    | none, none, none => fail (.unknownIdentifier t.text)

def primaryStart : Counting Operand := do
  let t ← token
  match t.kind with
  | .identifier => named env expression
  | .stringLiteral => literal (Operand.ofQuoted t)
  | .integerLiteral => literal (Operand.ofInteger t)
  | .realLiteral => literal (Operand.ofReal t)
  | .openParen => parenthesized expression
  | _ => fail .expressionExpected

def primary : Counting Operand := do
  let o ← primaryStart env expression
  postfixesUpTo expression (← remaining) o

def unaryOf : Counting Operand := do
  let t ← token
  match t.unaryOp? with
  | none => primary env expression
  | some op =>
    next
    let number ← token
    if t.kind = .minus ∧ isNumber number then
      (modify fun s => { s with token := ⟨number.kind, "-" ++ number.text, t.pos⟩ } : Reader Unit)
      primary env expression
    else
      let o ← operand
      check (Operand.unary t op o)

def joinUpTo (level : Precedence) : Nat → Operand → Counting Operand
  | 0, left => pure left
  | n + 1, left => do
    let t ← token
    if t.precedence? = some level then
      next
      let right ← operand
      let joined ← check (Operand.binary t left right)
      joinUpTo level n joined
    else pure left

def joined (level : Precedence) : Counting Operand := do
  let left ← operand
  joinUpTo operand level (← remaining) left

def binaryOf : Counting Operand :=
  joined (joined (joined (joined (joined operand .multiplicative) .additive) .comparison) .and) .or

def expressionOf : Counting Operand := do
  let pos := (← token).pos
  let test ← binaryOf operand
  if ← isAt .question then
    next
    let whenTrue ← expression
    skip .colon .colonExpected
    let whenFalse ← expression
    check (Operand.conditional test whenTrue whenFalse pos)
  else return test

end Rules

/-- The two readers that call one another. -/
structure Level where
  expression : Counting Operand
  operand : Counting Operand

/-- Readers whose calls of one another are nested at most so deep. It is the counter that stops
them; the bound only has to be large enough. -/
def level (env : Env) : Nat → Level
  | 0 =>
    let deeper : Counting Operand := fail (.nestingTooDeep env.maxDepth)
    ⟨deeper, unaryOf env deeper deeper⟩
  | n + 1 =>
    let inner := level env n
    let deeper := nested env.maxDepth (expressionOf inner.operand inner.expression)
    ⟨deeper, unaryOf env (nested env.maxDepth inner.operand) deeper⟩

/-! ## What is kept -/

/-- From the frame `f` on, the second reader does what the first does, which leaves `f` as it is. -/
def Keeps (f : Frame) (p : Counting α) (r : Reader α) : Prop :=
  p.run f = do return (← r, f)

namespace Keeps

variable {f : Frame}

theorem pure (a : α) : Keeps f (Pure.pure a) (Pure.pure a) := rfl

/-- What does not see the frame. -/
theorem lift (r : Reader α) : Keeps f (liftM r) r := rfl

theorem bind {p : Counting α} {r : Reader α} {q : α → Counting β} {t : α → Reader β}
    (hp : Keeps f p r) (hq : ∀ a, Keeps f (q a) (t a)) : Keeps f (p >>= q) (r >>= t) := by
  have behind : ∀ a, (q a).run f = do return (← t a, f) := hq
  simp only [Keeps, StateT.run_bind, show p.run f = _ from hp, bind_assoc, pure_bind, behind]

theorem andThen {r : Reader α} {q : α → Counting β} {t : α → Reader β}
    (hq : ∀ a, Keeps f (q a) (t a)) : Keeps f (liftM r >>= q) (r >>= t) := (lift r).bind hq

theorem before {p : Counting α} {r : Reader α} {t : α → Reader β} (hp : Keeps f p r) :
    Keeps f (p >>= fun a => liftM (t a)) (r >>= t) := hp.bind fun a => lift (t a)

/-- What would follow an error does not matter. -/
theorem fails (problem : Problem) {q : α → Counting β} {t : α → Reader β} :
    Keeps f (liftM (fail problem : Reader α) >>= q) (fail problem >>= t) := rfl

/-- The frame itself is given to the second reader from outside. -/
theorem frame {q : Frame → Counting β} {r : Reader β} (h : Keeps f (q f) r) :
    Keeps f (get >>= q) r := h

theorem ite {c : Prop} [Decidable c] {p q : Counting α} {r t : Reader α} (hp : Keeps f p r)
    (hq : Keeps f q t) : Keeps f (if c then p else q) (if c then r else t) := by
  split
  · exact hp
  · exact hq

end Keeps

theorem nested_keeps {f : Frame} {limit : Nat} {p : Counting α} {r : Reader α}
    (room : f.depth < limit) (h : Keeps { f with depth := f.depth + 1 } p r) :
    Keeps f (nested limit p) r := by
  have inside : p.run { f with depth := f.depth + 1 } =
      do return (← r, { f with depth := f.depth + 1 }) := h
  refine .frame ?_
  rw [if_neg (Nat.not_le.mpr room)]
  simp only [Keeps, StateT.run_bind, StateT.run_modify, pure_bind, inside, bind_assoc,
    Nat.add_sub_cancel, StateT.run_pure]

theorem nested_full {f : Frame} {limit : Nat} {p : Counting α} (full : limit ≤ f.depth) :
    Keeps f (nested limit p) (fail (.nestingTooDeep limit)) := by
  refine .frame ?_
  rw [if_pos full]
  exact .lift _

theorem withReceiver_keeps {f : Frame} {item : Parameter} {p : Counting α} {r : Reader α}
    (h : Keeps { f with receiver := some item, nextId := f.nextId + 1 } p r) :
    Keeps f (withReceiver item p) r := by
  have inside : p.run { f with receiver := some item, nextId := f.nextId + 1 } =
      do return (← r, { f with receiver := some item, nextId := f.nextId + 1 }) := h
  refine .frame ?_
  simp only [Keeps, StateT.run_bind, StateT.run_set, StateT.run_modify, pure_bind, inside,
    bind_assoc, StateT.run_pure]

theorem items_keeps {f : Frame} {p : Counting α} {r : Reader α} (h : Keeps f p r) :
    Keeps f (items p) (Reader.items r) := by
  refine .andThen fun n => ?_
  induction n with
  | zero => exact h.bind fun _ => .pure _
  | succ n ih =>
      exact h.bind fun _ => .andThen fun _ => .ite (.andThen fun _ => ih.bind fun _ => .pure _)
        (.pure _)

/-- At the depth `k` a reader keeps every frame and does what the part does. -/
def KeepsAt (k : Nat) (env : Env) (p : Counting Operand) (part : Part) : Prop :=
  ∀ f : Frame, f.depth = k → Keeps f p (part (f.over env))

section Rules

variable {k : Nat} {env : Env} {operand expression : Counting Operand}
  {operand' expression' : Part} {f : Frame}

theorem argumentList_keeps {r : Reader Operand} (h : Keeps f expression r) :
    Keeps f (argumentList expression) (Source.argumentList r) := by
  refine .andThen fun _ => .andThen fun empty => ?_
  cases empty with
  | true => exact .bind (.pure _) fun _ => .andThen fun _ => .pure _
  | false => exact (items_keeps h).bind fun _ => .andThen fun _ => .pure _

theorem memberAccess_keeps (he : KeepsAt k env expression expression') (hf : f.depth = k) (t : Ty)
    (target : Option Operand) :
    Keeps f (memberAccess expression t target)
      (Source.memberAccess expression' (f.over env) t target) := by
  refine .andThen fun _ => .andThen fun _ => .andThen fun _ => .andThen fun _ => .ite (.lift _) ?_
  cases target with
  | none => exact (argumentList_keeps (he f hf)).before
  | some source =>
    cases Operand.itemTy? t with
    | none => exact (argumentList_keeps (he f hf)).before
    | some element =>
      -- the arguments are read in another frame, at the same depth
      let item : Parameter := ⟨f.nextId, "", element⟩
      have inside := he { f with receiver := some item, nextId := f.nextId + 1 } hf
      exact .frame (withReceiver_keeps (argumentList_keeps inside)).before

theorem elementAccess_keeps (he : KeepsAt k env expression expression') (hf : f.depth = k)
    (target : Operand) :
    Keeps f (elementAccess expression target)
      (Source.elementAccess expression' (f.over env) target) :=
  .andThen fun _ => .andThen fun _ => (items_keeps (he f hf)).bind fun _ => .andThen fun _ =>
    .lift _

theorem postfixesUpTo_keeps (he : KeepsAt k env expression expression') (hf : f.depth = k)
    (n : Nat) (o : Operand) :
    Keeps f (postfixesUpTo expression n o)
      (Source.postfixesUpTo expression' (f.over env) n o) := by
  induction n generalizing o with
  | zero => exact .pure o
  | succ n ih =>
      refine .andThen fun _ => .ite ?_ (.andThen fun _ => .ite ?_ (.pure o))
      · exact .andThen fun _ => (memberAccess_keeps he hf _ _).bind ih
      · exact (elementAccess_keeps he hf o).bind ih

theorem parenthesized_keeps (he : KeepsAt k env expression expression') (hf : f.depth = k) :
    Keeps f (parenthesized expression) (Source.parenthesized expression' (f.over env)) :=
  .andThen fun _ => (he f hf).bind fun _ => .andThen fun _ => .pure _

theorem iif_keeps (he : KeepsAt k env expression expression') (hf : f.depth = k) :
    Keeps f (iif expression) (Source.iif expression' (f.over env)) := by
  refine .andThen fun _ => .andThen fun _ => (argumentList_keeps (he f hf)).bind fun args => ?_
  match args with
  | [_, _, _] => exact .lift _
  | [] | [_] | [_, _] | _ :: _ :: _ :: _ :: _ => exact .lift _

theorem projection_keeps (he : KeepsAt k env expression expression') (hf : f.depth = k) :
    Keeps f (projection expression) (Source.projection expression' (f.over env)) := by
  have item : Keeps f (projectionItem expression)
      (Source.projectionItem expression' (f.over env)) := by
    refine .andThen fun _ => (he f hf).bind fun o => .andThen fun _ => .ite ?_ ?_
    · exact .andThen fun _ => .andThen fun _ => .andThen fun _ => .pure _
    · cases o.expr.memberName? with
      | some name => exact .pure _
      | none => exact .lift _
  exact .andThen fun _ => .andThen fun _ => .andThen fun _ => (items_keeps item).bind fun _ =>
    .andThen fun _ => .andThen fun _ => .pure _

theorem typeAccess_keeps (he : KeepsAt k env expression expression') (hf : f.depth = k)
    (p : Predefined) :
    Keeps f (typeAccess expression p) (Source.typeAccess expression' (f.over env) p) := by
  refine .andThen fun _ => .andThen fun _ => .andThen fun _ =>
    .ite (.andThen fun t => ?_) (.bind (.pure _) fun t => ?_)
  all_goals
    exact .andThen fun _ => .ite (argumentList_keeps (he f hf)).before
      (.andThen fun _ => memberAccess_keeps he hf t none)

theorem symbol_keeps (he : KeepsAt k env expression expression') (hf : f.depth = k)
    (x : External) :
    Keeps f (symbol expression x) (Source.symbol expression' (f.over env) x) := by
  refine .andThen fun _ => ?_
  cases x with
  | symbols table => exact .fails _
  | value | expr =>
    refine .bind (.pure _) fun e => .andThen fun _ => ?_
    cases e with
    | lambda l => exact .andThen fun _ => .ite (argumentList_keeps (he f hf)).before (.pure _)
    | _ => exact .pure _

theorem named_keeps (he : KeepsAt k env expression expression') (hf : f.depth = k) :
    Keeps f (named env expression) (Source.named expression' (f.over env)) := by
  refine .andThen fun t => .ite (.andThen fun _ => .pure _) (.ite (.andThen fun _ => .pure _)
    (.ite (.andThen fun _ => .pure _) (.ite (.frame ?_) ?_)))
  · show Keeps f _ (match f.receiver with | some p => _ | none => _)
    split
    · exact .andThen fun _ => .pure _
    · exact .lift _
  refine .ite (iif_keeps he hf) (.ite (projection_keeps he hf) (.frame ?_))
  have names : (f.over env).symbol? t.text = env.symbol? t.text := rfl
  have receiver : (f.over env).receiver = f.receiver := rfl
  rw [names, receiver]
  cases Predefined.ofName? t.text with
  | some p => exact typeAccess_keeps he hf p
  | none =>
    cases env.symbol? t.text with
    | some x => exact symbol_keeps he hf x
    | none =>
      cases f.receiver with
      | some p => exact memberAccess_keeps he hf _ _
      | none => exact .lift _

theorem primary_keeps (he : KeepsAt k env expression expression') (hf : f.depth = k) :
    Keeps f (primary env expression) (Source.primary expression' (f.over env)) := by
  refine .bind (.andThen fun t => ?_) fun o => .andThen fun n => postfixesUpTo_keeps he hf n o
  cases t.kind with
  | identifier => exact named_keeps he hf
  | openParen => exact parenthesized_keeps he hf
  | _ => exact .lift _

theorem unaryOf_keeps (ho : KeepsAt k env operand operand')
    (he : KeepsAt k env expression expression') :
    KeepsAt k env (unaryOf env operand expression) (Source.unaryOf operand' expression') := by
  refine fun f hf => .andThen fun t => ?_
  cases t.unaryOp? with
  | none => exact primary_keeps he hf
  | some op =>
    exact .andThen fun _ => .andThen fun _ =>
      .ite (.andThen fun _ => primary_keeps he hf) (ho f hf).before

theorem joined_keeps {r : Reader Operand} (h : Keeps f operand r) (level : Precedence) :
    Keeps f (joined operand level) (Source.joined level r) := by
  refine h.bind fun left => .andThen fun n => ?_
  induction n generalizing left with
  | zero => exact .pure left
  | succ n ih =>
      exact .andThen fun _ => .ite (.andThen fun _ => h.bind fun _ => .andThen ih) (.pure left)

theorem expressionOf_keeps (ho : KeepsAt k env operand operand')
    (he : KeepsAt k env expression expression') :
    KeepsAt k env (expressionOf operand expression)
      (Source.expressionOf operand' expression') := by
  intro f hf
  have test : Keeps f (binaryOf operand) (Source.binaryOf (operand' (f.over env))) :=
    joined_keeps (joined_keeps (joined_keeps (joined_keeps (joined_keeps (ho f hf)
      _) _) _) _) _
  refine .andThen fun _ => test.bind fun _ => .andThen fun _ => .ite ?_ (.pure _)
  exact .andThen fun _ => (he f hf).bind fun _ => .andThen fun _ => (he f hf).before

end Rules

/-- At every depth an expression and an operand keep the frame, and are what is read with the
levels that are left. -/
theorem level_keeps (env : Env) (n k : Nat) (enough : env.maxDepth ≤ k + n) :
    KeepsAt k env (level env n).expression (expressionAt (env.maxDepth - k)) ∧
      KeepsAt k env (level env n).operand (operandAt (env.maxDepth - k)) := by
  -- by induction on the bound, while the counter goes up; the levels that are left stop first
  induction n generalizing k with
  | zero =>
      have full : KeepsAt k env (fail (.nestingTooDeep env.maxDepth)) tooDeep := fun f _ => .lift _
      rw [Nat.sub_eq_zero_of_le (show env.maxDepth ≤ k from enough)]
      exact ⟨full, unaryOf_keeps full full⟩
  | succ n ih =>
      by_cases room : k < env.maxDepth
      · obtain ⟨he, ho⟩ := ih (k + 1) (by omega)
        have left : env.maxDepth - k = env.maxDepth - (k + 1) + 1 := by omega
        have deeper : ∀ {p part}, KeepsAt (k + 1) env p part →
            KeepsAt k env (nested env.maxDepth p) part :=
          fun h f hf => nested_keeps (hf ▸ room) (h { f with depth := f.depth + 1 } (by rw [hf]))
        rw [left]
        have inner := deeper (expressionOf_keeps ho he)
        exact ⟨inner, unaryOf_keeps (deeper ho) inner⟩
      · have full : ∀ p, KeepsAt k env (nested env.maxDepth p) tooDeep :=
          fun p f hf => nested_full (hf ▸ Nat.not_lt.mp room)
        rw [Nat.sub_eq_zero_of_le (Nat.not_lt.mp room)]
        exact ⟨full _, unaryOf_keeps (full _) (full _)⟩

theorem Keeps.frame_eq {f f' : Frame} {p : Counting α} {r : Reader α} (h : Keeps f p r)
    {s s' : State} {a : α} (read : p.run f s = .ok (a, f') s') : f' = f ∧ r s = .ok a s' := by
  rw [show p.run f = _ from h] at read
  cases ends : r s with
  | ok b t =>
    simp only [Bind.bind, EStateM.bind, ends] at read
    cases read
    exact ⟨rfl, rfl⟩
  | error e t =>
    simp only [Bind.bind, EStateM.bind, ends] at read
    cases read

end Counting

open Counting in
/-- A higher limit changes nothing but what the lower one rejects. Where the depth is a counter and
the receiver a place, the grammar is the same, and both are as before behind every expression and
operand. -/
theorem limit_only_rejects :
    (∀ (c : Context) (resultTy : Option Ty) (text : String) (d : Nat), c.maxDepth ≤ d →
      (∀ e cache, readExpr c resultTy text = (.ok e, cache) →
        readExpr { c with maxDepth := d } resultTy text = (.ok e, cache)) ∧
      (∀ e cache, readExpr c resultTy text = (.error e, cache) → ¬ TooDeep e →
        readExpr { c with maxDepth := d } resultTy text = (.error e, cache))) ∧
    ∀ (env : Env) (n : Nat) (f : Frame), env.maxDepth ≤ f.depth + n →
      let left := env.maxDepth - f.depth
      ((level env n).expression.run f = do return (← expressionAt left (f.over env), f)) ∧
      ((level env n).operand.run f = do return (← operandAt left (f.over env), f)) ∧
      ∀ (s s' : State) (o : Operand) (f' : Frame),
        (level env n).expression.run f s = .ok (o, f') s' ∨
          (level env n).operand.run f s = .ok (o, f') s' →
        f'.depth = f.depth ∧ f'.receiver = f.receiver := by
  refine ⟨fun c resultTy text d limit => ?_, fun env n f enough => ?_⟩
  · have same := read_deepens (fun _ => wholeExpression_deepens resultTy) limit text
    refine ⟨fun e cache read => ?_, fun e cache read shallow => ?_⟩
    · rcases same with same | ⟨e', cache', stopped, -⟩
      · exact same.trans read
      · cases read.symm.trans stopped
    · rcases same with same | ⟨e', cache', stopped, deep⟩
      · exact same.trans read
      · cases read.symm.trans stopped
        exact absurd deep shallow
  · obtain ⟨he, ho⟩ := level_keeps env n f.depth enough
    refine ⟨he f rfl, ho f rfl, fun s s' o f' read => ?_⟩
    have kept : f' = f := by
      rcases read with read | read
      · exact ((he f rfl).frame_eq read).1
      · exact ((ho f rfl).frame_eq read).1
    rw [kept]
    exact ⟨rfl, rfl⟩

theorem limit_only_rejects_parentheses :
    let c : Nat → Context := fun d => ⟨[], [], d, .empty none⟩
    let env : Env := ⟨.empty, [], none, 0, 3⟩
    let f : Frame := ⟨1, none, 0⟩
    let s : State := ⟨⟨.integerLiteral, "7", 0⟩, .done 1, .empty none⟩
    (∃ e cache, readExpr (c 2) none "(1)" = (.ok e, cache) ∧
      readExpr (c 3) none "(1)" = (.ok e, cache)) ∧
    (∃ e cache, readExpr (c 1) none "1+y" = (.error e, cache) ∧ ¬ TooDeep e ∧
      readExpr (c 3) none "1+y" = (.error e, cache)) ∧
    env.maxDepth ≤ f.depth + 2 ∧
    ∃ o f' s', (Counting.level env 2).expression.run f s = .ok (o, f') s' ∧
      f'.depth = f.depth ∧ f'.receiver = f.receiver := by
  intro c env f s
  refine ⟨?_, ?_, by decide, ?_⟩
  · have shows : (readExpr (c 2) none "(1)").1.toOption.map Expr.toText = some "1" := by
      decide +kernel
    obtain ⟨e, cache, read, -⟩ := ok_of_map shows
    exact ⟨e, cache, read, (limit_only_rejects.1 (c 2) none "(1)" 3 (by decide)).1 e cache read⟩
  · have fails : (match (readExpr (c 1) none "1+y").1 with
        | .ok _ => none | .error e => some e) = some ⟨.unknownIdentifier "y", 2⟩ := by
      decide +kernel
    rcases read : readExpr (c 1) none "1+y" with ⟨e | e, cache⟩
    · have shallow : ¬ TooDeep e := by
        rw [read] at fails
        cases fails
        exact fun ⟨_, deep⟩ => by cases deep
      have same := (limit_only_rejects.1 (c 1) none "1+y" 3 (by decide)).2 e cache read shallow
      exact ⟨e, cache, rfl, shallow, same⟩
    · rw [read] at fails
      cases fails
  · obtain ⟨reads, -, kept⟩ := limit_only_rejects.2 env 2 f (by decide)
    have shows : (match expressionAt 2 (f.over env) s with
        | .ok o _ => some o.expr.toText | .error _ _ => none) = some "7" := by decide +kernel
    cases ends : expressionAt 2 (f.over env) s with
    | error e s' => rw [ends] at shows; cases shows
    | ok o s' =>
      have run : (Counting.level env 2).expression.run f s = .ok (o, f) s' := by
        rw [reads]
        show EStateM.bind (expressionAt 2 (f.over env)) _ s = _
        simp only [EStateM.bind, ends]
        rfl
      exact ⟨o, f, s', run, kept s s' o f (.inl run)⟩

end TypedExpr.Source
