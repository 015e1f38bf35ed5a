import TypedExpr.Eval
import TypedExpr.Proofs.Everywhere
import Mathlib.Logic.Relation

/-! # The parts that evaluation comes to

Evaluation of an expression evaluates parts of it, each in a scope of its own: operands in order,
the branch that is taken, and the bodies of functions for arguments or items. What lies behind an
operand without a value, or behind one that settles the outcome, is not evaluated.
-/

namespace TypedExpr.Expr

variable {host : Host} {scope : Scope} {Γ : List Parameter}

/-- The parts that a node evaluates in its own scope, one after the other. -/
def operands : Expr → List Expr
  | member (some e) _ _ | unary _ e | convert _ e _ | conditional e _ _ | aggregate e _ _ _ => [e]
  | call target _ _ args => target.toList ++ args
  | arrayIndex target index _ => [target, index]
  | binary _ left right _ => [left, right]
  | new _ args | invoke (lambda _) args _ | newRecord _ args => args
  | _ => []

/-- The values of the first operands settle the outcome, and no other operand is evaluated. -/
def Settled : Expr → List Value → Prop
  | call (some _) _ _ _, .null :: _ => True
  | binary .and _ _ _, [.boolean false] => True
  | binary .or _ _ _, [.boolean true] => True
  | _, _ => False

/-- To evaluate the one expression in its scope, the other one is evaluated in its own: an operand
    when those before it have values, the branch that is taken, the body of a function for the
    values of its arguments, and the function of an operation for one of the items. -/
inductive Asks (host : Host) : Expr × Scope → Expr × Scope → Prop where
  | operand {node before e after scope values} (h : node.operands = before ++ e :: after)
      (hb : evalAll host before scope = .ok values) (hs : ¬ node.Settled values) :
      Asks host (node, scope) (e, scope)
  | whenTrue {test whenTrue whenFalse scope} (h : eval host test scope = .ok (.boolean true)) :
      Asks host (conditional test whenTrue whenFalse, scope) (whenTrue, scope)
  | whenFalse {test whenTrue whenFalse scope} (h : eval host test scope = .ok (.boolean false)) :
      Asks host (conditional test whenTrue whenFalse, scope) (whenFalse, scope)
  | body {l args t scope values} (h : evalAll host args scope = .ok values) :
      Asks host (invoke (lambda l) args t, scope) (l.body, scope.bind l.params values)
  | item {source op l t scope v items item} (h : eval host source scope = .ok v)
      (hi : v.itemsOf = .ok items) (mem : item ∈ items) :
      Asks host (aggregate source op (some l) t, scope) (l.body, scope.bind l.params [item])

/-- Evaluation of the one expression in its scope comes to the other one in its own. -/
abbrev Reaches (host : Host) : Expr × Scope → Expr × Scope → Prop :=
  Relation.ReflTransGen (Asks host)

theorem Everywhere.operand {P : List Parameter → Expr → Prop} {e p : Expr} (h : Everywhere P Γ e)
    (hp : p ∈ e.operands) : Everywhere P Γ p := by
  cases e with
  | member target _ _ =>
      cases target with
      | none => cases hp
      | some e =>
          cases List.mem_singleton.mp hp
          exact h.2
  | unary _ e | convert _ e _ =>
      cases List.mem_singleton.mp hp
      exact h.2
  | conditional _ _ _ | aggregate _ _ _ _ =>
      cases List.mem_singleton.mp hp
      exact h.2.1
  | call target _ _ args =>
      rcases List.mem_append.mp hp with receiver | arg
      · cases target with
        | none => cases receiver
        | some e =>
            cases List.mem_singleton.mp receiver
            exact h.2.1
      · exact inAll_iff.mp h.2.2 p arg
  | arrayIndex _ _ _ | binary _ _ _ _ =>
      rcases List.mem_cons.mp hp with rfl | hp
      · exact h.2.1
      · cases List.mem_singleton.mp hp
        exact h.2.2
  | new _ args | newRecord _ args => exact inAll_iff.mp h.2 p hp
  | invoke f args _ =>
      cases f with
      | lambda l => exact inAll_iff.mp h.2.2 p hp
      | _ => cases hp
  | constant | parameter | lambda => cases hp

/-- What holds everywhere in an expression, whatever the scope, holds everywhere in the parts that
    its evaluation comes to. -/
theorem Asks.everywhere {Q : Expr → Prop} {a b : Expr × Scope} (h : Asks host a b)
    (ha : Everywhere (fun _ => Q) [] a.1) : Everywhere (fun _ => Q) [] b.1 := by
  cases h with
  | operand h _ _ => exact ha.operand (h ▸ List.mem_append_right _ List.mem_cons_self)
  | whenTrue => exact ha.2.2.1
  | whenFalse => exact ha.2.2.2
  | @body l =>
      obtain ⟨params, body⟩ := l
      exact Everywhere.anyScope ha.2.1
  | @item _ _ l =>
      obtain ⟨params, body⟩ := l
      exact Everywhere.anyScope ha.2.2

/-! ## Properties of all that is evaluated -/

variable {S : Expr → Scope → Prop} {a b : Expr × Scope}

/-- Whatever evaluation comes to satisfies `S` in its scope. -/
def Throughout (host : Host) (S : Expr → Scope → Prop) (a : Expr × Scope) : Prop :=
  ∀ b, Reaches host a b → S b.1 b.2

/-- The same for a list of expressions, of which each is evaluated when those before it have
    values. -/
def AllThroughout (host : Host) (S : Expr → Scope → Prop) (es : List Expr) (scope : Scope) : Prop :=
  ∀ before e after values, es = before ++ e :: after → evalAll host before scope = .ok values →
    Throughout host S (e, scope)

namespace AllThroughout

variable {e : Expr} {es : List Expr}

theorem head (h : AllThroughout host S (e :: es) scope) : Throughout host S (e, scope) :=
  h [] e es [] rfl rfl

theorem tail {v : Value} (h : AllThroughout host S (e :: es) scope)
    (hv : eval host e scope = .ok v) : AllThroughout host S es scope := by
  rintro before e' after values rfl hb
  refine h (e :: before) e' after (v :: values) rfl ?_
  simp only [evalAll, hv, hb]
  rfl

end AllThroughout

namespace Throughout

theorem root (h : Throughout host S a) : S a.1 a.2 := h a .refl

theorem asks (h : Throughout host S a) (hab : Asks host a b) : Throughout host S b :=
  fun c hbc => h c (.head hab hbc)

/-- What holds of every node in every scope holds throughout evaluation. -/
theorem of_everywhere (h : Everywhere (fun _ e => ∀ scope, S e scope) [] a.1) :
    Throughout host S a := by
  intro b reaches
  have everywhere : Everywhere (fun _ e => ∀ scope, S e scope) [] b.1 := by
    induction reaches with
    | refl => exact h
    | tail _ asks ih => exact asks.everywhere ih
  exact everywhere.root b.2

theorem operands {node : Expr} (h : Throughout host S (node, scope))
    (hs : ∀ values, ¬ node.Settled values) : AllThroughout host S node.operands scope :=
  fun _ _ _ values parts hb => h.asks (.operand parts hb (hs values))

/-- The first operand is evaluated in any case. -/
theorem operand {node e : Expr} {rest : List Expr} (h : Throughout host S (node, scope))
    (he : node.operands = e :: rest) (hs : ¬ node.Settled []) : Throughout host S (e, scope) :=
  h.asks (@Asks.operand host node [] e rest scope [] he rfl hs)

/-- The arguments of a method are evaluated when there is something to call it on. -/
theorem arguments {e : Expr} {owner : Ty} {m : Method} {args : List Expr} {receiver : Value}
    (h : Throughout host S (call (some e) owner m args, scope))
    (hr : eval host e scope = .ok receiver) (hn : ¬ receiver.isNull) :
    AllThroughout host S args scope := by
  rintro before e' after values rfl hb
  have values : evalAll host (e :: before) scope = .ok (receiver :: values) := by
    simp only [evalAll, hr, hb]
    rfl
  refine h.asks (.operand rfl values fun settled => ?_)
  cases receiver with
  | null => exact hn rfl
  | _ => exact settled

end Throughout

end TypedExpr.Expr
