import TypedExpr.Operand

/-!
# Choosing an overload

An overload applies when it has as many parameters as there are arguments and every argument can
be given the type of its parameter. Of several that apply, the one is chosen that is better than
each other: at no argument a worse target, and at one a better. Without such a one the choice is
ambiguous. Layers of overloads are tried in order, and the first in which one applies counts.
-/

namespace TypedExpr

/-- The outcome of a choice. `place` is the layer in which the choice was made. -/
inductive Resolution (α : Type) where
  | notFound
  | ambiguous
  | found (place : α) (method : Method) (args : List Operand)

/-- An overload that applies, with the arguments in the types of its parameters. -/
structure Candidate where
  method : Method
  args : List Operand

namespace Overload

def promoteAll? : List Param → List Operand → Option (List Operand)
  | [], [] => some []
  | p :: ps, a :: as => do
    if p.isOut then none
    else
      let a ← a.promote? p.ty false
      let as ← promoteAll? ps as
      return a :: as
  | _, _ => none

/-- The overload, if it applies. -/
def candidate? (args : List Operand) (m : Method) : Option Candidate :=
  (promoteAll? m.params args).map (⟨m, ·⟩)

/-- At no argument are the second parameters better targets. -/
def noWorse : List Operand → List Param → List Param → Bool
  | a :: as, p :: ps, q :: qs => a.ty.compareTargets p.ty q.ty != .lt && noWorse as ps qs
  | _, _, _ => true

/-- At one argument the first parameters are a better target. -/
def somewhereBetter : List Operand → List Param → List Param → Bool
  | a :: as, p :: ps, q :: qs =>
    a.ty.compareTargets p.ty q.ty == .gt || somewhereBetter as ps qs
  | _, _, _ => false

def isBetter (args : List Operand) (m n : Method) : Bool :=
  noWorse args m.params n.params && somewhereBetter args m.params n.params

/-- The candidate at place `i` is better than every other one. -/
def beatsOthers (args : List Operand) (candidates : List Candidate) (i : Nat) (c : Candidate) :
    Bool :=
  candidates.zipIdx.all fun (d, j) => i == j || isBetter args c.method d.method

/-- The candidates that are better than every other one. -/
def best (args : List Operand) (candidates : List Candidate) : List Candidate :=
  (candidates.zipIdx.filter fun (c, i) => beatsOthers args candidates i c).map (·.1)

def resolve {α : Type} (place : α) (methods : List Method) (args : List Operand) : Resolution α :=
  match methods.filterMap (candidate? args) with
  | [] => .notFound
  | [c] => .found place c.method c.args
  | candidates =>
    match best args candidates with
    | [c] => .found place c.method c.args
    | _ => .ambiguous

def resolveLayers {α : Type} (methodsOf : α → List Method) (args : List Operand) :
    List α → Resolution α
  | [] => .notFound
  | layer :: rest =>
    match resolve layer (methodsOf layer) args with
    | .notFound => resolveLayers methodsOf args rest
    | outcome => outcome

end Overload
end TypedExpr
