import TypedExpr.Proofs.Scoping

/-! # Evaluation on one stack of bindings

The same evaluation with one stack for all parameters. A function puts its arguments on the stack
and takes them off again when its body has a value or has failed; the selector of an operation does
so for each item. Every evaluation leaves the stack as it was, and has the value that it has in the
scope of the stack.
-/

namespace TypedExpr

/-- Bindings in the order in which they are made, the innermost one last. -/
abbrev BindingStack := List (Parameter × Value)

/-- The bindings in the order in which they are looked through. -/
def BindingStack.scope (stack : BindingStack) : Scope := stack.reverse

/-- Evaluations that change the stack. What they make of it remains when they fail. -/
abbrev Stacked (α : Type) := ExceptT EvalError (StateM BindingStack) α

namespace Stacked

variable {α β : Type}

/-- What does not concern the stack. -/
def ofOutcome (x : Outcome α) : Stacked α := fun stack => (x, stack)

def lookup (p : Parameter) : Stacked Value := fun stack => (stack.scope.lookup p, stack)

/-- Put bindings on the stack for a while. It is cut off at its old height then, whether `body`
succeeds or not. -/
def within (bindings : List (Parameter × Value)) (body : Stacked α) : Stacked α := fun stack =>
  let (result, left) := body (stack ++ bindings)
  (result, left.take stack.length)

/-! ## Operations on sequences -/

/-- The answer of an operation for one item, as a selector gives it. -/
structure Selector where
  select : Value → Stacked Value
  ty : Ty

namespace Selector

open AggregateOp

def holds (s : Selector) (item : Value) : Stacked Bool := do
  let answer ← ofOutcome (← s.select item).truth?
  return answer == some true

def keep (s : Selector) : List Value → Stacked (List Value)
  | [] => pure []
  | v :: vs => do
    let holds ← s.holds v
    let rest ← s.keep vs
    return if holds then v :: rest else rest

def meets (s : Selector) (answer : Bool) : List Value → Stacked Bool
  | [] => pure false
  | v :: vs => do
    if (← s.holds v) == answer then return true else s.meets answer vs

def foldResults (s : Selector) (f : α → Value → Outcome α) (start : α) : List Value → Stacked α
  | [] => pure start
  | v :: vs => do
    let result ← s.select v
    let next ← if result.isNull then pure start else ofOutcome (f start result)
    s.foldResults f next vs

def extremeOf (s : Selector) (side : Ordering) (items : List Value) : Stacked Value := do
  match ← s.foldResults (fun best v => pure (moreExtreme side best v)) none items with
  | some v => return v
  | none => if !s.ty.isValueType || s.ty.isNullable then return .null else throw .emptySequence

def averageOf (s : Selector) (items : List Value) (resultTy : Ty) : Stacked Value := do
  let kind := s.ty.nonNullable
  let add (total v : Value) : Outcome Value :=
    if averagesWide kind then wideSumOf total v else sumOf total v
  let (total, n) ← s.foldResults
    (fun (total, n) v => do return (← add total v, n + 1)) (Value.defaultOf kind, 0) items
  if n = 0 then if resultTy.isNullable then return .null else throw .emptySequence
  else ofOutcome (quotientOf total n)

def run (s : Selector) (op : AggregateOp) (items : List Value) (resultTy : Ty) : Stacked Value :=
  match op with
  | .filter => do return .sequence (← s.keep items)
  | .any => do return .boolean (← s.meets true items)
  | .all => do return .boolean !(← s.meets false items)
  | .count => do ofOutcome (countOf (← s.keep items).length)
  | .min => s.extremeOf .lt items
  | .max => s.extremeOf .gt items
  | .sum => s.foldResults sumOf (Value.defaultOf s.ty.nonNullable) items
  | .average => s.averageOf items resultTy

end Selector

/-! ## Expressions -/

/-- And and or, where the right side is evaluated only if the left one settles nothing. -/
def logical (left : Value) (decisive : Bool) (right : Stacked Value) : Stacked Value := do
  let l ← ofOutcome left.truth?
  if l = some decisive then return .boolean decisive
  let r ← ofOutcome (← right).truth?
  return match l, r with
    | some _, some b => .boolean b
    | none, some b => if b = decisive then .boolean decisive else .null
    | _, none => .null

mutual

def eval (host : Host) : Expr → Stacked Value
  | .constant v _ => pure v
  | .parameter p => lookup p
  | .member target _ m => do ofOutcome (m.read (← evalTarget host target))
  | .call target _ m args => do
    let receiver ← evalTarget host target
    if target.isSome && receiver.isNull then throw .nullReference
    ofOutcome (m.call host receiver (← evalAll host args))
  | .arrayIndex target index _ => do
    let target ← eval host target
    let index ← eval host index
    ofOutcome (target.itemAt index)
  | .new c args => do ofOutcome (c.call host .null (← evalAll host args))
  | .unary op operand => do ofOutcome (op.apply (← eval host operand))
  | .binary .and left right _ => do logical (← eval host left) false (eval host right)
  | .binary .or left right _ => do logical (← eval host left) true (eval host right)
  | .binary op left right _ => do
    let a ← eval host left
    let b ← eval host right
    ofOutcome (if op.isComparison then op.comparison a b else op.arithmetic a b)
  | .conditional test whenTrue whenFalse => do
    match ← eval host test with
    | .boolean true => eval host whenTrue
    | .boolean false => eval host whenFalse
    | .null => throw .noValue
    | v => throw (.cast v .boolean)
  | .convert checked operand t => do ofOutcome ((← eval host operand).convert checked t)
  | .lambda _ => throw (.unsupported "a lambda as a value")
  | .invoke (.lambda l) args _ => do apply host l (← evalAll host args)
  | .invoke _ _ _ => throw (.unsupported "invocation of a non-lambda")
  | .newRecord r fields => do
    match Record.ofValues r (← evalAll host fields) with
    | .ok record => return record.toValue
    | .error e => throw (.record e)
  | .aggregate source op none t => do
    let items ← ofOutcome (← eval host source).itemsOf
    ofOutcome (op.run none items t)
  | .aggregate source op (some l) t => do
    let items ← ofOutcome (← eval host source).itemsOf
    Selector.run ⟨fun item => apply host l [item], l.resultTy⟩ op items t

def evalTarget (host : Host) : Option Expr → Stacked Value
  | none => pure .null
  | some e => eval host e

def evalAll (host : Host) : List Expr → Stacked (List Value)
  | [] => pure []
  | e :: es => do
    let v ← eval host e
    let vs ← evalAll host es
    return v :: vs

/-- Evaluate the body of a function with its parameters bound to `args`. -/
def apply (host : Host) : Lambda → List Value → Stacked Value
  | ⟨params, body⟩, args =>
    if params.length ≠ args.length then throw (.arityMismatch params.length args.length)
    else within (params.zip args) (eval host body)

end

/-! ## What is left on the stack -/

/-- The evaluation leaves the stack as it was, and goes as `f` in the scope of the stack. -/
def Leaves (m : Stacked α) (f : Scope → Outcome α) : Prop :=
  ∀ stack : BindingStack, m stack = (f stack.scope, stack)

namespace Leaves

variable {f g : Scope → Outcome α}

theorem ofOutcome (x : Outcome α) : Leaves (Stacked.ofOutcome x) fun _ => x := fun _ => rfl

theorem pure (a : α) : Leaves (Pure.pure a) fun _ => .ok a := fun _ => rfl

theorem throw (e : EvalError) : Leaves (throw e : Stacked α) fun _ => .error e := fun _ => rfl

theorem lookup (p : Parameter) : Leaves (Stacked.lookup p) fun scope => scope.lookup p :=
  fun _ => rfl

theorem bind {m : Stacked α} {k : α → Stacked β} {h : α → Scope → Outcome β} (hm : Leaves m f)
    (hk : ∀ a, Leaves (k a) (h a)) :
    Leaves (m >>= k) fun scope => f scope >>= fun a => h a scope := by
  intro stack
  have first := hm stack
  simp only [Bind.bind, ExceptT.bind, ExceptT.mk, StateT.bind, first]
  cases f stack.scope with
  | error e => rfl
  | ok a => exact hk a stack

theorem ite {c : Prop} [Decidable c] {m n : Stacked α} (hm : Leaves m f) (hn : Leaves n g) :
    Leaves (if c then m else n) fun scope => if c then f scope else g scope := by
  split
  · exact hm
  · exact hn

/-- The bindings are taken off again. -/
theorem within {bindings : List (Parameter × Value)} {m : Stacked α} (hm : Leaves m f) :
    Leaves (Stacked.within bindings m) fun scope => f (bindings.reverse ++ scope) := by
  intro stack
  have inner := hm (stack ++ bindings)
  simp only [Stacked.within, inner, List.take_left, BindingStack.scope, List.reverse_append]

end Leaves

namespace Selector

variable {s : Selector} {t : Scope → AggregateOp.Selection}

/-- The selector leaves the stack as it was and selects as `t` in the scope of the stack. -/
structure Matches (s : Selector) (t : Scope → AggregateOp.Selection) : Prop where
  select : ∀ item, Leaves (s.select item) fun scope => (t scope).select item
  ty : ∀ scope, (t scope).ty = s.ty

theorem Matches.holds (h : s.Matches t) (item : Value) :
    Leaves (s.holds item) fun scope => (t scope).holds item :=
  (h.select item).bind fun v => (Leaves.ofOutcome v.truth?).bind fun _ => .pure _

theorem Matches.keep (h : s.Matches t) (items : List Value) :
    Leaves (s.keep items) fun scope => (t scope).keep items := by
  induction items with
  | nil => exact .pure []
  | cons v vs ih => exact (h.holds v).bind fun _ => ih.bind fun _ => .pure _

theorem Matches.meets (h : s.Matches t) (answer : Bool) (items : List Value) :
    Leaves (s.meets answer items) fun scope => (t scope).meets answer items := by
  induction items with
  | nil => exact .pure false
  | cons v vs ih => exact (h.holds v).bind fun _ => .ite (.pure _) ih

theorem Matches.foldResults (h : s.Matches t) (f : α → Value → Outcome α) (start : α)
    (items : List Value) :
    Leaves (s.foldResults f start items) fun scope => (t scope).foldResults f start items := by
  induction items generalizing start with
  | nil => exact .pure start
  | cons v vs ih =>
      refine (h.select v).bind fun result => ?_
      by_cases null : result.isNull
      · simp only [null, if_true]
        exact (Leaves.pure start).bind fun _ => ih _
      · simp only [null, Bool.false_eq_true, if_false]
        exact (Leaves.ofOutcome _).bind fun _ => ih _

theorem Matches.extremeOf (h : s.Matches t) (side : Ordering) (items : List Value) :
    Leaves (s.extremeOf side items) fun scope => AggregateOp.extremeOf (t scope) side items := by
  refine (h.foldResults _ _ items).bind fun best => ?_
  cases best with
  | some v => exact .pure v
  | none =>
      simp only [h.ty]
      exact .ite (.pure _) (.throw _)

theorem Matches.averageOf (h : s.Matches t) (items : List Value) (resultTy : Ty) :
    Leaves (s.averageOf items resultTy) fun scope =>
      AggregateOp.averageOf (t scope) items resultTy := by
  simp only [AggregateOp.averageOf, h.ty]
  refine (h.foldResults _ _ items).bind fun (total, n) => ?_
  exact .ite (.ite (.pure _) (.throw _)) (.ofOutcome _)

theorem Matches.run (h : s.Matches t) (op : AggregateOp) (items : List Value) (resultTy : Ty) :
    Leaves (s.run op items resultTy) fun scope => op.runWith (t scope) items resultTy := by
  cases op with
  | filter => exact (h.keep items).bind fun _ => .pure _
  | any => exact (h.meets true items).bind fun _ => .pure _
  | all => exact (h.meets false items).bind fun _ => .pure _
  | count => exact (h.keep items).bind fun _ => .ofOutcome _
  | min => exact h.extremeOf .lt items
  | max => exact h.extremeOf .gt items
  | sum =>
      simp only [AggregateOp.runWith, h.ty]
      exact h.foldResults _ _ items
  | average => exact h.averageOf items resultTy

end Selector

theorem logical_leaves (left : Value) (decisive : Bool) {right : Stacked Value}
    {f : Scope → Outcome Value} (h : Leaves right f) :
    Leaves (logical left decisive right) fun scope => left.logical decisive (f scope) := by
  refine (Leaves.ofOutcome left.truth?).bind fun l => ?_
  by_cases settled : l = some decisive
  · simp only [settled, if_true]
    exact .pure _
  · simp only [settled, if_false]
    exact h.bind fun r => (Leaves.ofOutcome r.truth?).bind fun _ => .pure _

mutual

/-- An expression leaves the stack as it was, whether it has a value or fails. -/
theorem eval_leaves (host : Host) : ∀ e : Expr, Leaves (eval host e) (Expr.eval host e)
  | .constant v _ => .pure v
  | .parameter p => .lookup p
  | .member target _ m => (evalTarget_leaves host target).bind fun _ => .ofOutcome _
  | .call target _ m args => by
      refine (evalTarget_leaves host target).bind fun receiver => ?_
      have called := (evalAll_leaves host args).bind fun values =>
        Leaves.ofOutcome (m.call host receiver values)
      by_cases missing : target.isSome && receiver.isNull
      · simp only [missing, if_true]
        exact .throw _
      · simp only [missing]
        exact called
  | .arrayIndex target index _ =>
      (eval_leaves host target).bind fun _ => (eval_leaves host index).bind fun _ => .ofOutcome _
  | .new _ args => (evalAll_leaves host args).bind fun _ => .ofOutcome _
  | .unary _ operand => (eval_leaves host operand).bind fun _ => .ofOutcome _
  | .binary op left right _ => by
      have hl := eval_leaves host left
      have hr := eval_leaves host right
      cases op with
      | and | or => exact hl.bind fun _ => logical_leaves _ _ hr
      | _ => exact hl.bind fun _ => hr.bind fun _ => .ofOutcome _
  | .conditional test whenTrue whenFalse => by
      refine (eval_leaves host test).bind fun v => ?_
      cases v with
      | boolean b =>
          cases b
          · exact eval_leaves host whenFalse
          · exact eval_leaves host whenTrue
      | _ => exact .throw _
  | .convert _ operand _ => (eval_leaves host operand).bind fun _ => .ofOutcome _
  | .lambda _ => .throw _
  | .invoke f args _ => by
      cases f with
      | lambda l => exact (evalAll_leaves host args).bind fun values => apply_leaves host l values
      | _ => exact .throw _
  | .newRecord r fields => by
      refine (evalAll_leaves host fields).bind fun values => ?_
      cases Record.ofValues r values with
      | ok record => exact .pure _
      | error e => exact .throw _
  | .aggregate source op selector t => by
      have source := eval_leaves host source
      cases selector with
      | none => exact source.bind fun v => (Leaves.ofOutcome v.itemsOf).bind fun _ => .ofOutcome _
      | some l =>
          refine source.bind fun v => (Leaves.ofOutcome v.itemsOf).bind fun items => ?_
          exact Selector.Matches.run ⟨fun item => apply_leaves host l [item], fun _ => rfl⟩
            op items t

private theorem evalTarget_leaves (host : Host) : ∀ target : Option Expr,
    Leaves (evalTarget host target) (Expr.evalTarget host target)
  | none => .pure Value.null
  | some e => eval_leaves host e

private theorem evalAll_leaves (host : Host) : ∀ es : List Expr,
    Leaves (evalAll host es) (Expr.evalAll host es)
  | [] => .pure []
  | e :: es => (eval_leaves host e).bind fun _ => (evalAll_leaves host es).bind fun _ => .pure _

theorem apply_leaves (host : Host) : ∀ (l : Lambda) (args : List Value),
    Leaves (apply host l args) fun scope => Expr.applyIn host l scope args
  | ⟨_, body⟩, _ => .ite (.throw _) (eval_leaves host body).within

end

end Stacked

/-! ## Lexical scope -/

namespace Expr

/-- Evaluation is lexically scoped. Scopes that agree on the free parameters of an expression give
it the same outcome. On a stack of bindings an expression, and a function for its arguments, has
the outcome that it has in the scope of the stack, and leaves the stack as it was, with a value or
with an error. So a function of its own parameters alone has the outcome that it has in the empty
scope, whatever is on the stack, when it is invoked and when it selects from the items of a
sequence. -/
theorem eval_lexical (host : Host) :
    (∀ (e : Expr) (scope scope' : Scope), Scope.AgreesOn e.free scope scope' →
      e.eval host scope = e.eval host scope') ∧
    (∀ (e : Expr) (stack : BindingStack),
      Stacked.eval host e stack = (e.eval host stack.scope, stack)) ∧
    (∀ (l : Lambda) (args : List Value) (stack : BindingStack),
      Stacked.apply host l args stack = (applyIn host l stack.scope args, stack)) ∧
    ∀ l : Lambda, l.IsClosed →
      (∀ (args : List Value) (stack : BindingStack),
        Stacked.apply host l args stack = (l.apply host args, stack)) ∧
      (∀ (args : List Expr) (t : Ty) (scope : Scope),
        (invoke (lambda l) args t).eval host scope =
          (do l.apply host (← evalAll host args scope))) ∧
      ∀ (source : Expr) (op : AggregateOp) (t : Ty) (scope : Scope),
        (aggregate source op (some l) t).eval host scope = (do
          let items ← (← source.eval host scope).itemsOf
          op.run (some ⟨fun item => l.apply host [item], l.resultTy⟩) items t) := by
  refine ⟨fun e _ _ h => eval_congr host e h, Stacked.eval_leaves host,
    Stacked.apply_leaves host, fun l closed => ⟨fun args stack => ?_, fun args t scope => ?_, ?_⟩⟩
  · refine (Stacked.apply_leaves host l args stack).trans ?_
    simp only [applyIn_closed closed]
  · simp only [eval, applyIn_closed closed]
  · intro source op t scope
    simp only [eval, applyIn_closed closed]

/-- The successor of a number, invoked while its parameter has another value. -/
theorem eval_lexical_successor :
    let host : Host := fun _ _ _ => .error "no host"
    let x : Parameter := ⟨0, "x", .int32⟩
    let l : Lambda :=
      ⟨[x], .binary .add (.parameter x) (.constant (.int32 1) .int32) .int32⟩
    l.IsClosed ∧ Stacked.apply host l [.int32 5] [(x, .int32 8)] =
      (.ok (.int32 6), [(x, .int32 8)]) := by
  intro host x l
  have closed : l.IsClosed := rfl
  obtain ⟨-, -, -, apart⟩ := eval_lexical host
  exact ⟨closed, (apart l closed).1 [.int32 5] [(x, .int32 8)]⟩

end Expr
end TypedExpr
