import TypedExpr.Expr

/-! # A property of every node

A property of nodes under the parameters that are visible there, the innermost first: those of the
functions around the node and those that the whole expression is under. A function that is called
where it stands counts as a part of its call, as it does when the call is evaluated.
-/

namespace TypedExpr.Expr

mutual

/-- Every node of an expression satisfies `P`. -/
def Everywhere (P : List Parameter → Expr → Prop) : List Parameter → Expr → Prop
  | Γ, constant v t => P Γ (constant v t)
  | Γ, parameter p => P Γ (parameter p)
  | Γ, member target owner m => P Γ (member target owner m) ∧ InTarget P Γ target
  | Γ, call target owner m args =>
    P Γ (call target owner m args) ∧ InTarget P Γ target ∧ InAll P Γ args
  | Γ, arrayIndex target index t =>
    P Γ (arrayIndex target index t) ∧ Everywhere P Γ target ∧ Everywhere P Γ index
  | Γ, new c args => P Γ (new c args) ∧ InAll P Γ args
  | Γ, unary op operand => P Γ (unary op operand) ∧ Everywhere P Γ operand
  | Γ, binary op left right t =>
    P Γ (binary op left right t) ∧ Everywhere P Γ left ∧ Everywhere P Γ right
  | Γ, conditional test whenTrue whenFalse =>
    P Γ (conditional test whenTrue whenFalse) ∧
      Everywhere P Γ test ∧ Everywhere P Γ whenTrue ∧ Everywhere P Γ whenFalse
  | Γ, convert checked operand t => P Γ (convert checked operand t) ∧ Everywhere P Γ operand
  | Γ, lambda l => P Γ (lambda l) ∧ InLambda P Γ l
  | Γ, invoke (lambda l) args t =>
    P Γ (invoke (lambda l) args t) ∧ InLambda P Γ l ∧ InAll P Γ args
  | Γ, invoke f args t => P Γ (invoke f args t) ∧ Everywhere P Γ f ∧ InAll P Γ args
  | Γ, newRecord r fields => P Γ (newRecord r fields) ∧ InAll P Γ fields
  | Γ, aggregate source op selector t =>
    P Γ (aggregate source op selector t) ∧ Everywhere P Γ source ∧ InSelector P Γ selector

def InTarget (P : List Parameter → Expr → Prop) : List Parameter → Option Expr → Prop
  | _, none => True
  | Γ, some e => Everywhere P Γ e

def InAll (P : List Parameter → Expr → Prop) : List Parameter → List Expr → Prop
  | _, [] => True
  | Γ, e :: es => Everywhere P Γ e ∧ InAll P Γ es

def InLambda (P : List Parameter → Expr → Prop) : List Parameter → Lambda → Prop
  | Γ, ⟨params, body⟩ => Everywhere P (params.reverse ++ Γ) body

/-- The same for a selector. -/
def InSelector (P : List Parameter → Expr → Prop) : List Parameter → Option Lambda → Prop
  | _, none => True
  | Γ, some l => InLambda P Γ l

end

variable {P Q : List Parameter → Expr → Prop} {Γ : List Parameter}

theorem inAll_iff {es : List Expr} : InAll P Γ es ↔ ∀ e ∈ es, Everywhere P Γ e := by
  induction es with
  | nil => simp [InAll]
  | cons e es ih => simp [InAll, ih]

/-- What holds everywhere holds at the root. -/
theorem Everywhere.root {e : Expr} (h : Everywhere P Γ e) : P Γ e := by
  unfold Everywhere at h
  split at h
  all_goals first
    | exact h
    | exact h.1

/-- Related scopes stay related when parameters are put in front of both, and `P` at a node under
    the one scope gives `Q` at the node under the other. -/
structure Carries (R : List Parameter → List Parameter → Prop)
    (P Q : List Parameter → Expr → Prop) : Prop where
  extend : ∀ params Γ Γ', R Γ Γ' → R (params ++ Γ) (params ++ Γ')
  node : ∀ Γ Γ' e, R Γ Γ' → P Γ e → Q Γ' e

variable {R : List Parameter → List Parameter → Prop}

mutual

/-- A property of nodes carries over to related scopes if it does so at each node. -/
theorem Everywhere.transport (c : Carries R P Q) : ∀ (e : Expr) {Γ Γ' : List Parameter}, R Γ Γ' →
    Everywhere P Γ e → Everywhere Q Γ' e
  | constant .., _, _, r, he => c.node _ _ _ r he
  | parameter _, _, _, r, he => c.node _ _ _ r he
  | member target _ _, _, _, r, he => ⟨c.node _ _ _ r he.1, InTarget.transport c target r he.2⟩
  | call target _ _ args, _, _, r, he =>
      ⟨c.node _ _ _ r he.1, InTarget.transport c target r he.2.1, InAll.transport c args r he.2.2⟩
  | arrayIndex target index _, _, _, r, he =>
      ⟨c.node _ _ _ r he.1, Everywhere.transport c target r he.2.1,
        Everywhere.transport c index r he.2.2⟩
  | new _ args, _, _, r, he => ⟨c.node _ _ _ r he.1, InAll.transport c args r he.2⟩
  | unary _ operand, _, _, r, he => ⟨c.node _ _ _ r he.1, Everywhere.transport c operand r he.2⟩
  | binary _ left right _, _, _, r, he =>
      ⟨c.node _ _ _ r he.1, Everywhere.transport c left r he.2.1,
        Everywhere.transport c right r he.2.2⟩
  | conditional test whenTrue whenFalse, _, _, r, he =>
      ⟨c.node _ _ _ r he.1, Everywhere.transport c test r he.2.1,
        Everywhere.transport c whenTrue r he.2.2.1, Everywhere.transport c whenFalse r he.2.2.2⟩
  | convert _ operand _, _, _, r, he => ⟨c.node _ _ _ r he.1, Everywhere.transport c operand r he.2⟩
  | lambda l, _, _, r, he => ⟨c.node _ _ _ r he.1, InLambda.transport c l r he.2⟩
  | invoke f args t, Γ, Γ', r, he => by
      cases f with
      | lambda l => exact ⟨c.node _ _ _ r he.1, InLambda.transport c l r he.2.1,
          InAll.transport c args r he.2.2⟩
      | _ => exact ⟨c.node _ _ _ r he.1, Everywhere.transport c _ r he.2.1,
          InAll.transport c args r he.2.2⟩
  | newRecord _ fields, _, _, r, he => ⟨c.node _ _ _ r he.1, InAll.transport c fields r he.2⟩
  | aggregate source _ selector _, _, _, r, he =>
      ⟨c.node _ _ _ r he.1, Everywhere.transport c source r he.2.1,
        InSelector.transport c selector r he.2.2⟩

private theorem InTarget.transport (c : Carries R P Q) : ∀ (target : Option Expr)
    {Γ Γ' : List Parameter}, R Γ Γ' → InTarget P Γ target → InTarget Q Γ' target
  | none, _, _, _, _ => trivial
  | some e, _, _, r, he => Everywhere.transport c e r he

private theorem InAll.transport (c : Carries R P Q) : ∀ (es : List Expr)
    {Γ Γ' : List Parameter}, R Γ Γ' → InAll P Γ es → InAll Q Γ' es
  | [], _, _, _, _ => trivial
  | e :: es, _, _, r, he => ⟨Everywhere.transport c e r he.1, InAll.transport c es r he.2⟩

private theorem InLambda.transport (c : Carries R P Q) : ∀ (l : Lambda)
    {Γ Γ' : List Parameter}, R Γ Γ' → InLambda P Γ l → InLambda Q Γ' l
  | ⟨_, body⟩, _, _, r, he => Everywhere.transport c body (c.extend _ _ _ r) he

private theorem InSelector.transport (c : Carries R P Q) : ∀ (selector : Option Lambda)
    {Γ Γ' : List Parameter}, R Γ Γ' → InSelector P Γ selector → InSelector Q Γ' selector
  | none, _, _, _, _ => trivial
  | some l, _, _, r, he => InLambda.transport c l r he

end

theorem Everywhere.imp {e : Expr} (h : ∀ Γ e, P Γ e → Q Γ e) (he : Everywhere P Γ e) :
    Everywhere Q Γ e :=
  he.transport (R := Eq) ⟨fun _ _ _ same => same ▸ rfl, fun _ _ e same he => same ▸ h _ e he⟩ e rfl

/-- Further parameters around an expression do not matter if they do not matter to a node. -/
theorem Everywhere.weaken {e : Expr} {Δ : List Parameter}
    (h : ∀ Γ e, P Γ e → P (Γ ++ Δ) e) (he : Everywhere P Γ e) : Everywhere P (Γ ++ Δ) e :=
  he.transport (R := fun Γ Γ' => Γ' = Γ ++ Δ)
    ⟨fun _ _ _ same => by simp [same], fun _ _ e same he => same ▸ h _ e he⟩ e rfl

/-- A property that does not look at scopes holds in every scope or in none. -/
theorem Everywhere.anyScope {S : Expr → Prop} {e : Expr} {Γ' : List Parameter}
    (he : Everywhere (fun _ => S) Γ e) : Everywhere (fun _ => S) Γ' e :=
  he.transport (Q := fun _ => S) (R := fun _ _ => True)
    ⟨fun _ _ _ _ => trivial, fun _ _ _ _ h => h⟩ e trivial

mutual

/-- What holds everywhere holds everywhere together. -/
theorem Everywhere.both : ∀ (e : Expr) {Γ : List Parameter}, Everywhere P Γ e → Everywhere Q Γ e →
    Everywhere (fun Γ e => P Γ e ∧ Q Γ e) Γ e
  | constant .., _, hp, hq => ⟨hp, hq⟩
  | parameter _, _, hp, hq => ⟨hp, hq⟩
  | member target _ _, _, hp, hq => ⟨⟨hp.1, hq.1⟩, InTarget.both target hp.2 hq.2⟩
  | call target _ _ args, _, hp, hq =>
      ⟨⟨hp.1, hq.1⟩, InTarget.both target hp.2.1 hq.2.1, InAll.both args hp.2.2 hq.2.2⟩
  | arrayIndex target index _, _, hp, hq =>
      ⟨⟨hp.1, hq.1⟩, Everywhere.both target hp.2.1 hq.2.1, Everywhere.both index hp.2.2 hq.2.2⟩
  | new _ args, _, hp, hq => ⟨⟨hp.1, hq.1⟩, InAll.both args hp.2 hq.2⟩
  | unary _ operand, _, hp, hq => ⟨⟨hp.1, hq.1⟩, Everywhere.both operand hp.2 hq.2⟩
  | binary _ left right _, _, hp, hq =>
      ⟨⟨hp.1, hq.1⟩, Everywhere.both left hp.2.1 hq.2.1, Everywhere.both right hp.2.2 hq.2.2⟩
  | conditional test whenTrue whenFalse, _, hp, hq =>
      ⟨⟨hp.1, hq.1⟩, Everywhere.both test hp.2.1 hq.2.1,
        Everywhere.both whenTrue hp.2.2.1 hq.2.2.1, Everywhere.both whenFalse hp.2.2.2 hq.2.2.2⟩
  | convert _ operand _, _, hp, hq => ⟨⟨hp.1, hq.1⟩, Everywhere.both operand hp.2 hq.2⟩
  | lambda l, _, hp, hq => ⟨⟨hp.1, hq.1⟩, InLambda.both l hp.2 hq.2⟩
  | invoke f args t, Γ, hp, hq => by
      cases f with
      | lambda l =>
          exact ⟨⟨hp.1, hq.1⟩, InLambda.both l hp.2.1 hq.2.1, InAll.both args hp.2.2 hq.2.2⟩
      | _ =>
          exact ⟨⟨hp.1, hq.1⟩, Everywhere.both _ hp.2.1 hq.2.1, InAll.both args hp.2.2 hq.2.2⟩
  | newRecord _ fields, _, hp, hq => ⟨⟨hp.1, hq.1⟩, InAll.both fields hp.2 hq.2⟩
  | aggregate source _ selector _, _, hp, hq =>
      ⟨⟨hp.1, hq.1⟩, Everywhere.both source hp.2.1 hq.2.1, InSelector.both selector hp.2.2 hq.2.2⟩

private theorem InTarget.both : ∀ (target : Option Expr) {Γ : List Parameter}, InTarget P Γ target →
    InTarget Q Γ target → InTarget (fun Γ e => P Γ e ∧ Q Γ e) Γ target
  | none, _, _, _ => trivial
  | some e, _, hp, hq => Everywhere.both e hp hq

private theorem InAll.both : ∀ (es : List Expr) {Γ : List Parameter}, InAll P Γ es → InAll Q Γ es →
    InAll (fun Γ e => P Γ e ∧ Q Γ e) Γ es
  | [], _, _, _ => trivial
  | e :: es, _, hp, hq => ⟨Everywhere.both e hp.1 hq.1, InAll.both es hp.2 hq.2⟩

private theorem InLambda.both : ∀ (l : Lambda) {Γ : List Parameter}, InLambda P Γ l →
    InLambda Q Γ l → InLambda (fun Γ e => P Γ e ∧ Q Γ e) Γ l
  | ⟨_, body⟩, _, hp, hq => Everywhere.both body hp hq

private theorem InSelector.both : ∀ (selector : Option Lambda) {Γ : List Parameter},
    InSelector P Γ selector → InSelector Q Γ selector →
    InSelector (fun Γ e => P Γ e ∧ Q Γ e) Γ selector
  | none, _, _, _ => trivial
  | some l, _, hp, hq => InLambda.both l hp hq

end

end TypedExpr.Expr
