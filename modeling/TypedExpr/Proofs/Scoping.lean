import TypedExpr.Eval

/-! # The parameters that matter

What an expression evaluates to depends on the innermost values of the parameters that are free in
it, and on nothing else in the scope. A function of its own parameters alone has one value for
given arguments, wherever it is called.
-/

namespace TypedExpr

namespace Scope

variable {scope scope' : Scope} {p : Parameter}

/-- The innermost value of a parameter. -/
def value? (scope : Scope) (p : Parameter) : Option Value :=
  (scope.find? fun b => b.1.id == p.id).map (·.2)

/-- The scopes give the parameters the same innermost values, or none. -/
def AgreesOn (ps : List Parameter) (scope scope' : Scope) : Prop :=
  ∀ p ∈ ps, scope.value? p = scope'.value? p

theorem lookup_congr (h : scope.value? p = scope'.value? p) : scope.lookup p = scope'.lookup p :=
  congrArg (Outcome.ofOption _) h

theorem value?_append (inner outer : Scope) (p : Parameter) :
    value? (inner ++ outer) p = (inner.value? p).or (outer.value? p) := by
  simp only [value?, List.find?_append]
  cases inner.find? fun b => b.1.id == p.id <;> rfl

end Scope

/-! ## Free parameters -/

namespace Expr

mutual

/-- The parameters that occur free. -/
def free : Expr → List Parameter
  | constant .. => []
  | parameter p => [p]
  | member target _ _ => targetFree target
  | call target _ _ args => targetFree target ++ allFree args
  | arrayIndex target index _ => target.free ++ index.free
  | new _ args => allFree args
  | unary _ operand | convert _ operand _ => operand.free
  | binary _ left right _ => left.free ++ right.free
  | conditional test whenTrue whenFalse => test.free ++ (whenTrue.free ++ whenFalse.free)
  | lambda l => lambdaFree l
  | invoke f args _ => f.free ++ allFree args
  | newRecord _ fields => allFree fields
  | aggregate source _ selector _ => source.free ++ selectorFree selector

def targetFree : Option Expr → List Parameter
  | none => []
  | some e => e.free

def allFree : List Expr → List Parameter
  | [] => []
  | e :: es => e.free ++ allFree es

/-- A function binds its parameters in its body. -/
def lambdaFree : Lambda → List Parameter
  | ⟨params, body⟩ => body.free.filter fun p => !params.any (·.id == p.id)

def selectorFree : Option Lambda → List Parameter
  | none => []
  | some l => lambdaFree l

end

end Expr

/-- The body mentions no parameters but those of the function. -/
def Lambda.IsClosed (l : Lambda) : Prop := Expr.lambdaFree l = []

namespace Scope.AgreesOn

variable {ps qs : List Parameter} {scope scope' : Scope}

theorem left (h : AgreesOn (ps ++ qs) scope scope') : AgreesOn ps scope scope' :=
  fun p hp => h p (List.mem_append_left _ hp)

theorem right (h : AgreesOn (ps ++ qs) scope scope') : AgreesOn qs scope scope' :=
  fun p hp => h p (List.mem_append_right _ hp)

/-- A parameter that is given no value is none of those that are bound. -/
private theorem unbound {params : List Parameter} {args : List Value} {p : Parameter}
    (arity : params.length = args.length)
    (missing : Scope.value? (params.zip args).reverse p = none) :
    params.any (·.id == p.id) = false := by
  rw [Bool.eq_false_iff]
  intro bound
  obtain ⟨q, hq, same⟩ := List.any_eq_true.mp bound
  rw [← List.map_fst_zip (Nat.le_of_eq arity)] at hq
  obtain ⟨b, hb, rfl⟩ := List.mem_map.mp hq
  simp only [Scope.value?, Option.map_eq_none_iff, List.find?_eq_none] at missing
  exact missing b (List.mem_reverse.mpr hb) same

/-- Where a function gives its parameters values, the scopes go on to agree. -/
theorem bind {params : List Parameter} {args : List Value} {body : Expr}
    (h : AgreesOn (Expr.lambdaFree ⟨params, body⟩) scope scope')
    (arity : params.length = args.length) :
    AgreesOn body.free (scope.bind params args) (scope'.bind params args) := by
  intro p hp
  rw [Scope.bind, Scope.bind, value?_append, value?_append]
  cases given : Scope.value? (params.zip args).reverse p with
  | some v => rfl
  | none =>
      have free : p ∈ Expr.lambdaFree ⟨params, body⟩ := by
        simp only [Expr.lambdaFree, List.mem_filter]
        exact ⟨hp, by rw [unbound arity given]; rfl⟩
      exact congrArg _ (h p free)

end Scope.AgreesOn

/-! ## Agreement of evaluations -/

namespace Expr

open Scope (AgreesOn)

variable {scope scope' : Scope}

mutual

/-- Only the innermost values of the free parameters matter. -/
theorem eval_congr (host : Host) : ∀ (e : Expr) {scope scope' : Scope},
    AgreesOn e.free scope scope' → eval host e scope = eval host e scope'
  | constant .., _, _, _ => rfl
  | parameter p, _, _, h => Scope.lookup_congr (h p (List.mem_singleton_self p))
  | member target _ _, _, _, h => by rw [eval, eval, evalTarget_congr host target h]
  | call target _ _ args, _, _, h => by
      rw [eval, eval, evalTarget_congr host target h.left, evalAll_congr host args h.right]
  | arrayIndex target index _, _, _, h => by
      rw [eval, eval, eval_congr host target h.left, eval_congr host index h.right]
  | new _ args, _, _, h => by rw [eval, eval, evalAll_congr host args h]
  | unary _ operand, _, _, h => by rw [eval, eval, eval_congr host operand h]
  | binary op left right _, _, _, h => by
      have hl := eval_congr host left h.left
      have hr := eval_congr host right h.right
      cases op <;> simp only [eval, hl, hr]
  | conditional test whenTrue whenFalse, _, _, h => by
      rw [eval, eval, eval_congr host test h.left, eval_congr host whenTrue h.right.left,
        eval_congr host whenFalse h.right.right]
  | convert _ operand _, _, _, h => by rw [eval, eval, eval_congr host operand h]
  | lambda _, _, _, _ => rfl
  | invoke f args t, _, _, h => by
      cases f with
      | lambda l =>
          have applied := fun values => applyIn_congr host l values h.left
          simp only [eval, applied, evalAll_congr host args h.right]
      | _ => rfl
  | newRecord _ fields, _, _, h => by rw [eval, eval, evalAll_congr host fields h]
  | aggregate source _ none _, _, _, h => by rw [eval, eval, eval_congr host source h.left]
  | aggregate source _ (some l) _, _, _, h => by
      have applied := fun values => applyIn_congr host l values h.right
      simp only [eval, applied, eval_congr host source h.left]

private theorem evalTarget_congr (host : Host) : ∀ (target : Option Expr) {scope scope' : Scope},
    AgreesOn (targetFree target) scope scope' →
      evalTarget host target scope = evalTarget host target scope'
  | none, _, _, _ => rfl
  | some e, _, _, h => eval_congr host e h

private theorem evalAll_congr (host : Host) : ∀ (es : List Expr) {scope scope' : Scope},
    AgreesOn (allFree es) scope scope' → evalAll host es scope = evalAll host es scope'
  | [], _, _, _ => rfl
  | e :: es, _, _, h => by
      rw [evalAll, evalAll, eval_congr host e h.left, evalAll_congr host es h.right]

theorem applyIn_congr (host : Host) : ∀ (l : Lambda) (args : List Value) {scope scope' : Scope},
    AgreesOn (lambdaFree l) scope scope' → applyIn host l scope args = applyIn host l scope' args
  | ⟨params, body⟩, args, _, _, h => by
      simp only [applyIn]
      split
      · rfl
      · exact eval_congr host body (h.bind (Decidable.of_not_not ‹_›))

end

/-- A function of its own parameters alone does not look at the scope that it is called in. -/
theorem applyIn_closed {l : Lambda} (closed : l.IsClosed) (host : Host) (scope : Scope)
    (args : List Value) : applyIn host l scope args = l.apply host args :=
  applyIn_congr host l args fun p hp => by
    rw [closed] at hp
    cases hp

end Expr
end TypedExpr
