import TypedExpr.Proofs.Closure
import TypedExpr.Proofs.SafeNodes

/-! # Evaluation is type safe

A text that is read over plain types evaluates to a value of its static type, all the way down, or
ends with an error that tells something of the values. The static types cannot say everything: a
function must be called where it stands, orderings must be asked of what has an order, and a text
among the items of a collection stands for a sequence of characters statically but not when it is
stored in a record.
-/

namespace TypedExpr

open Outcome Value Source

variable {texts : Prop} {Γ : List Parameter} {scope : Scope}

namespace Expr

/-- What is known of a node: that the grammar has made it, or that it comes from outside. A
    parameter is the innermost one of its number. -/
inductive Node (Γ : List Parameter) : Expr → Prop where
  | formed {e} (h : e.Formed) : Node Γ e
  | parameter {p} (h : Γ.find? (·.id == p.id) = some p) : Node Γ (.parameter p)
  | given {v} (h : v.Conforms False v.typeOf) : Node Γ (.constant v v.typeOf)
  | function {l} : Node Γ (.lambda l)

/-- The node is known, and its type is plain. -/
def Plain (Γ : List Parameter) (e : Expr) : Prop := Node Γ e ∧ e.ty.Plain

/-- The grammar keeps expressions plain. -/
theorem plain_closed : Closed Ty.Plain Plain where
  family := Ty.Plain.family
  ty h := h.2
  formed h _ ht := ⟨.formed h, ht⟩
  weaken := by
    rintro Γ Δ e ⟨node, ht⟩
    refine ⟨?_, ht⟩
    cases node with
    | formed h => exact .formed h
    | parameter h => exact .parameter (by simp [List.find?_append, h])
    | given h => exact .given h
    | function => exact .function
  item ht := ⟨.parameter (by simp), ht⟩
  within := by
    rintro Γ p item ⟨node, ht⟩ hid
    refine ⟨.parameter ?_, ht⟩
    -- the item has a number of its own, so that it hides no parameter
    have other : (item.id == p.id) = false := by simpa using Nat.ne_of_gt hid
    cases node with
    | formed h => cases h
    | parameter h => simpa [List.find?_cons, other] using h

/-- What the types do not rule out: a function that is not called, an ordering without an order,
    and, unless texts may stand for their characters, a function of sequences and a conversion of
    a collection with texts in it. -/
def Allowed (texts : Prop) : Expr → Prop
  | lambda _ => False
  | binary op l r _ => op.isComparison → Operand.isEquality op ∨ HaveOrder l r
  | convert _ e t => texts ∨ t.nestsText e.ty = false
  | invoke (lambda l) _ _ => texts ∨ ∀ p ∈ l.params, p.ty.isSequence = false
  | _ => True

/-- A plain node that asks for nothing that the types do not rule out. -/
abbrev Judged (texts : Prop) (Γ : List Parameter) (e : Expr) : Prop := Plain Γ e ∧ Allowed texts e

theorem Judged.formed {e : Expr} (h : Judged texts Γ e) (hp : ∀ p, e ≠ .parameter p)
    (hc : ∀ v t, e ≠ .constant v t) : e.Formed := by
  obtain ⟨⟨node, -⟩, allowed⟩ := h
  cases node with
  | formed h => exact h
  | parameter => exact absurd rfl (hp _)
  | given => exact absurd rfl (hc _ _)
  | function => exact absurd allowed id

theorem Judged.constant_conforms {v : Value} {t : Ty} (h : Judged texts Γ (.constant v t)) :
    v.Conforms texts t := by
  obtain ⟨⟨node, -⟩, -⟩ := h
  cases node with
  | formed h =>
      cases h with
      | constant hs hv => exact .of_scalar hs hv
  | given h => exact h.imp False.elim

end Expr

/-! ## Scopes -/

/-- The values of the visible parameters conform to their types. -/
abbrev ScopeOk (texts : Prop) (Γ : List Parameter) (scope : Scope) : Prop :=
  List.Forall₂ (fun p (b : Parameter × Value) => b.1 = p ∧ b.2.Conforms texts p.ty) Γ scope

theorem ScopeOk.lookup_safe {p : Parameter} (h : ScopeOk texts Γ scope)
    (hp : Γ.find? (·.id == p.id) = some p) :
    (scope.lookup p).Safe texts fun v => v.Conforms texts p.ty := by
  unfold Scope.lookup
  induction h with
  | nil => cases hp
  | @cons q b _ _ hb _ ih =>
      obtain ⟨rfl, conforms⟩ := hb
      simp only [List.find?_cons] at hp ⊢
      split at hp
      · cases hp
        exact .ok conforms
      · exact ih hp

theorem ScopeOk.bind {params : List Parameter} {args : List Value} (h : ScopeOk texts Γ scope)
    (hargs : List.Forall₂ (fun v (p : Parameter) => Value.Conforms texts v p.ty) args params) :
    ScopeOk texts (params.reverse ++ Γ) (scope.bind params args) := by
  have bound : ScopeOk texts params (params.zip args) := by
    induction hargs with
    | nil => exact .nil
    | cons hv _ ih => exact .cons ⟨rfl, hv⟩ ih
  exact List.rel_append (List.rel_reverse bound) h

/-! ## Expressions -/

namespace Expr

variable {host : Host}

theorem logic_cases {op : BinaryOp} (h : OperatorClass.ofBinary op = .logic) :
    op = .and ∨ op = .or := by
  cases op <;> first | exact .inl rfl | exact .inr rfl | cases h

/-- Both operands are evaluated, unless the operator is and or or. -/
theorem eval_binary {op : BinaryOp} {l r : Expr} {t : Ty}
    (hop : OperatorClass.ofBinary op ≠ .logic) :
    eval host (.binary op l r t) scope = (do
      let a ← eval host l scope
      let b ← eval host r scope
      if op.isComparison then op.comparison a b else op.arithmetic a b) := by
  cases op <;> first | rfl | exact absurd rfl hop

/-- A constant evaluates to itself. -/
theorem constant_safe {e : Expr} {P : Value → Prop} (h : (eval host e scope).Safe texts P) :
    (eval host e scope).Safe texts fun v => P v ∧ ∀ u t, e = .constant u t → v = u := by
  generalize heval : eval host e scope = outcome at h
  cases h with
  | error permitted => exact .error permitted
  | ok hv =>
      refine .ok ⟨hv, ?_⟩
      rintro u t rfl
      simpa [eval, eq_comm] using heval

/-- What an expression everywhere is, its parts are at the root. -/
theorem Everywhere.plain {e : Expr} (h : Everywhere (Judged texts) Γ e) : e.ty.Plain := h.root.1.2

theorem InTarget.plain {target : Option Expr} (h : InTarget (Judged texts) Γ target) :
    ∀ e ∈ target, e.ty.Plain := by
  rintro e ⟨⟩
  exact Everywhere.plain h

theorem InAll.plain {es : List Expr} (h : InAll (Judged texts) Γ es) : ∀ e ∈ es, e.ty.Plain :=
  fun e he => (inAll_iff.mp h e he).plain

mutual

/-- A judged expression evaluates to a value that conforms to its type, or ends with a permitted
    error. -/
theorem eval_safe : ∀ (e : Expr) {Γ : List Parameter} {scope : Scope}, ScopeOk texts Γ scope →
    Everywhere (Judged texts) Γ e → (eval host e scope).Safe texts fun v => v.Conforms texts e.ty
  | constant v t, _, _, _, he => .ok (Judged.constant_conforms he)
  | parameter p, Γ, scope, hs, he => by
      obtain ⟨⟨node, -⟩, -⟩ := he
      cases node with
      | formed h => cases h
      | parameter found => exact hs.lookup_safe found
  | member target owner m, _, _, hs, he =>
      Safe.bind (evalTarget_safe target hs he.2) fun receiver hr =>
        (he.1.formed nofun nofun).member_safe (InTarget.plain he.2) hr
  | call target owner m args, _, scope, hs, he => by
      have formed := he.1.formed nofun nofun
      refine Safe.bind (evalTarget_safe target hs he.2.1) fun receiver hr => ?_
      have rest : (evalAll host args scope >>= fun values => m.call host receiver values).Safe texts
          fun v => v.Conforms texts (m.result.getD .object) :=
        Safe.bind (evalAll_safe args hs he.2.2) fun values hvalues =>
          formed.call_safe (InTarget.plain he.2.1) (InAll.plain he.2.2) hr hvalues
      split
      · exact .error .nullReference
      · exact rest
  | arrayIndex target index _, _, _, hs, he =>
      Safe.bind (eval_safe target hs he.2.1) fun items hitems =>
        Safe.bind (eval_safe index hs he.2.2) fun i hi =>
          (he.1.formed nofun nofun).arrayIndex_safe hitems hi
  | new c args, _, _, hs, he =>
      Safe.bind (evalAll_safe args hs he.2) fun values hvalues =>
        (he.1.formed nofun nofun).new_safe (InAll.plain he.2) hvalues
  | unary op operand, _, _, hs, he =>
      Safe.bind (eval_safe operand hs he.2) fun v hv => (he.1.formed nofun nofun).unary_safe hv
  | binary op left right t, _, _, hs, he => by
      have formed := he.1.formed nofun nofun
      have safeLeft := eval_safe left hs he.2.1
      have safeRight := eval_safe right hs he.2.2
      -- only and or may leave their right operand alone
      by_cases hop : OperatorClass.ofBinary op = .logic
      · rcases logic_cases hop with rfl | rfl
        · exact Safe.bind safeLeft fun v hv => formed.logical_safe rfl hv safeRight
        · exact Safe.bind safeLeft fun v hv => formed.logical_safe rfl hv safeRight
      · rw [eval_binary hop]
        refine Safe.bind (constant_safe safeLeft) fun a ⟨ha, hl⟩ => ?_
        refine Safe.bind (constant_safe safeRight) fun b ⟨hb, hr⟩ => ?_
        refine formed.binary_safe hop he.2.1.plain ?_ he.1.2 ha hb hl hr
        rintro e (⟨u, rfl⟩ | ⟨u, rfl⟩)
        · exact he.2.1.2.plain
        · exact he.2.2.2.plain
  | conditional test whenTrue whenFalse, _, _, hs, he => by
      have formed := he.1.formed nofun nofun
      cases formed with
      | conditional htest same =>
          refine Safe.bind (eval_safe test hs he.2.1) fun v hv => ?_
          rw [htest] at hv
          obtain ⟨b, rfl⟩ := hv.boolean
          cases b with
          | true => exact eval_safe whenTrue hs he.2.2.1
          | false =>
              have safe := eval_safe whenFalse hs he.2.2.2
              rw [← same] at safe
              exact safe
  | convert checked operand t, _, _, hs, he =>
      Safe.bind (eval_safe operand hs he.2) fun v hv =>
        (he.1.formed nofun nofun).convert_safe he.1.1.2 hv he.1.2
  | lambda _, _, _, _, he => absurd he.1.2 id
  | invoke f args t, Γ, scope, hs, he => by
      cases f with
      | lambda l =>
          cases he.1.formed nofun nofun with
          | invoke hargs =>
              have values := evalAll_safe args hs he.2.2
              refine Safe.bind values fun values hvalues => ?_
              have fit :
                  List.Forall₂ (fun (a : Expr) t => a.ty.Fits t) args (l.params.map (·.ty)) :=
                List.forall₂_map_right_iff.mpr hargs
              have passed := hvalues.pass (InAll.plain he.2.2) fit (by simpa [Allowed] using he.1.2)
              exact applyIn_safe l hs he.2.1 (List.forall₂_map_right_iff.mp passed)
      | _ => nomatch he.1.formed nofun nofun
  | newRecord r fields, _, _, hs, he =>
      Safe.bind (evalAll_safe fields hs he.2) fun values hvalues =>
        (he.1.formed nofun nofun).newRecord_safe (Ty.Plain.properties he.1.1.2) hvalues
  | aggregate source op none t, _, _, hs, he =>
      Safe.bind (eval_safe source hs he.2.1) fun v hv => (he.1.formed nofun nofun).bare_safe hv
  | aggregate source op (some l) t, _, _, hs, he =>
      Safe.bind (eval_safe source hs he.2.1) fun v hv =>
        (he.1.formed nofun nofun).aggregate_safe hv fun item hitem =>
          applyIn_safe l hs he.2.2 hitem

theorem evalTarget_safe : ∀ (target : Option Expr) {Γ : List Parameter} {scope : Scope},
    ScopeOk texts Γ scope → InTarget (Judged texts) Γ target →
    (evalTarget host target scope).Safe texts fun v => Formed.IsTarget texts target v
  | none, _, _, _, _ => .ok nofun
  | some e, _, _, hs, he => (eval_safe e hs he).imp fun v hv => by
      rintro _ ⟨⟩
      exact hv

theorem evalAll_safe : ∀ (es : List Expr) {Γ : List Parameter} {scope : Scope},
    ScopeOk texts Γ scope → InAll (Judged texts) Γ es →
    (evalAll host es scope).Safe texts fun values => ValuesOf texts values es
  | [], _, _, _, _ => .ok .nil
  | e :: es, _, _, hs, he =>
      Safe.bind (eval_safe e hs he.1) fun _ hv =>
        Safe.bind (evalAll_safe es hs he.2) fun _ hvs => .ok (.cons hv hvs)

theorem applyIn_safe : ∀ (l : Lambda) {Γ : List Parameter} {scope : Scope} {args : List Value},
    ScopeOk texts Γ scope → InLambda (Judged texts) Γ l →
    List.Forall₂ (fun v (p : Parameter) => Value.Conforms texts v p.ty) args l.params →
    (applyIn host l scope args).Safe texts fun v => v.Conforms texts l.resultTy
  | ⟨params, body⟩, _, _, args, hs, he, hargs => by
      unfold applyIn
      rw [if_neg (by simpa using hargs.length_eq.symm)]
      exact eval_safe body (hs.bind hargs) he

end

end Expr
/-! ## Texts -/

theorem Lambda.checkArgs_ok {params : List Parameter} {args : List Value}
    (h : List.Forall₂ (fun v (p : Parameter) => Value.Conforms False v p.ty) args params)
    (plain : ∀ p ∈ params, p.ty.Plain) : checkArgs params args = .ok () := by
  induction h with
  | nil => rfl
  | @cons v p vs ps hv _ ih =>
      rcases hv.conformsTo (plain p (by simp)) with shown | ⟨impossible, -⟩
      · rw [checkArgs, if_pos shown]
        exact ih fun q hq => plain q (by simp [hq])
      · exact impossible.elim

namespace Source

open Expr

/-- The host has declared no classes: types are plain, numbers tell parameters apart, values
    conform to their own types, and expressions are closed and known. -/
structure Context.Plain (c : Context) : Prop where
  param {p} (h : p ∈ c.params) : p.ty.Plain
  distinct {p q} (hp : p ∈ c.params) (hq : q ∈ c.params) (h : p.id = q.id) : p = q
  value {v} (h : Given c.values (.value v)) : v.typeOf.Plain ∧ v.Conforms False v.typeOf
  expr {e} (h : Given c.values (.expr e)) : e.Everywhere Expr.Plain []

variable {c : Context} {resultTy : Option Ty} {text : String} {l : Lambda} {cache : RecordCache}

/-- A parameter of the context is the innermost one of its number. -/
theorem Context.Plain.find?_param (hc : c.Plain) {p : Parameter} (hp : p ∈ c.params) :
    c.params.reverse.find? (·.id == p.id) = some p := by
  cases found : c.params.reverse.find? (·.id == p.id) with
  | none =>
      have missing := List.find?_eq_none.mp found p (List.mem_reverse.mpr hp)
      simp at missing
  | some q =>
      have same : q.id = p.id := by simpa using List.find?_some found
      have mem := List.mem_reverse.mp (List.mem_of_find?_eq_some found)
      rw [hc.distinct mem hp same]

/-- A function that is read over plain types can be given to others in turn. -/
theorem readLambda_plain (hc : c.Plain) (hresult : ∀ t, resultTy = some t → t.Plain)
    (h : readLambda c resultTy text = (.ok l, cache)) :
    l.params = c.params ∧ (Expr.lambda l).Everywhere Expr.Plain [] := by
  simp only [readLambda] at h
  cases hread : readExpr c resultTy text with
  | mk result cache' =>
      rw [hread] at h
      cases result with
      | error e => cases h
      | ok body =>
          cases h
          have known : body.Everywhere Expr.Plain (c.params.reverse ++ []) := by
            refine (readExpr_good plain_closed (fun p hp => ?_) (fun x hx => ?_) hresult hread).1
            · exact ⟨.parameter (by simpa using hc.find?_param hp), hc.param hp⟩
            · cases x with
              | value v =>
                  obtain ⟨plain, conforms⟩ := hc.value hx
                  exact ⟨.given conforms, plain⟩
              | expr e => exact hc.expr hx
              | symbols => trivial
          refine ⟨rfl, ⟨.function, .lambda ?_ ?_⟩, known⟩
          · simpa using fun p hp => hc.param hp
          · exact known.root.2

/-- Type safety. A function that is read over plain types, called with arguments that conform to
    its parameters all the way down, returns a value that conforms to its result type all the way
    down, or fails for what the values are. If a collection with texts in it is passed on as one of
    sequences of characters, a text may stand for its characters in the value, and a record may
    refuse one. -/
theorem readLambda_safe {host : Host} {args : List Value} (hc : c.Plain)
    (hresult : ∀ t, resultTy = some t → t.Plain)
    (h : readLambda c resultTy text = (.ok l, cache))
    (allowed : l.body.Everywhere (fun _ => Allowed texts) [])
    (hargs : List.Forall₂ (fun v (p : Parameter) => Value.Conforms False v p.ty) args c.params) :
    (l.evaluate host args).Safe texts fun v => v.Conforms texts l.resultTy := by
  obtain ⟨params, known⟩ := readLambda_plain hc hresult h
  obtain ⟨params', body⟩ := l
  cases params
  have conform :
      List.Forall₂ (fun v (p : Parameter) => Value.Conforms texts v p.ty) args c.params :=
    hargs.imp fun v p hv => hv.imp False.elim
  unfold Lambda.evaluate
  rw [Lambda.checkArgs_ok hargs fun p hp => hc.param hp]
  exact applyIn_safe _ .nil (Everywhere.both body known.2 allowed.anyScope) conform

/-! ## A sum divided, and a text in a record -/

private def noFunctions : Host := fun _ _ _ => .error ""

private def numbers : Context := ⟨[⟨0, "xs", .array .int32⟩, ⟨1, "n", .int32⟩], [], 3, .empty none⟩

/-- The expression is a sum divided by a parameter. -/
private def isQuotient : Expr → Bool
  | .binary .divide (.aggregate (.parameter _) _ (some ⟨_, .parameter _⟩) _) (.parameter _) _ =>
      true
  | _ => false

private theorem isQuotient_allowed {e : Expr} (h : isQuotient e) :
    e.Everywhere (fun _ => Allowed False) [] := by
  unfold isQuotient at h
  split at h
  · exact ⟨nofun, ⟨trivial, trivial, trivial⟩, trivial⟩
  · cases h

private theorem numbers_plain : numbers.Plain where
  param h := by
    simp only [numbers, List.mem_cons, List.not_mem_nil, or_false] at h
    rcases h with rfl | rfl
    · exact .array (.predefined _)
    · exact .predefined _
  distinct hp hq h := by
    simp only [numbers, List.mem_cons, List.not_mem_nil, or_false] at hp hq
    rcases hp with rfl | rfl <;> rcases hq with rfl | rfl <;> simp_all
  value h := absurd h not_given_nil
  expr h := absurd h not_given_nil

theorem readLambda_safe_quotient :
    ∃ l cache, readLambda numbers none "xs.Sum(it) / n" = (.ok l, cache) ∧
      (l.evaluate noFunctions [.sequence [.int32 3, .int32 4], .int32 0]).Safe False
        fun v => v.Conforms False l.resultTy := by
  have shape : (readLambda numbers none "xs.Sum(it) / n").1.toOption.map
      (fun l => isQuotient l.body) = some true := by decide +kernel
  obtain ⟨l, cache, read, quotient⟩ := ok_of_map shape
  refine ⟨l, cache, read, ?_⟩
  refine readLambda_safe numbers_plain (by simp) read (isQuotient_allowed quotient) ?_
  refine .cons (.array ?_) (.cons (.scalar rfl rfl rfl) .nil)
  simp only [List.forall_mem_cons]
  exact ⟨.scalar rfl rfl rfl, .scalar rfl rfl rfl, by simp⟩

private def spellings : Context :=
  ⟨[⟨0, "b", .boolean⟩, ⟨1, "x", .sequence (.sequence .char)⟩, ⟨2, "y", .array .string⟩], [], 3,
    .empty none⟩

private def error? : Outcome Value → Option EvalError
  | .ok _ => none
  | .error e => some e

/-- A record refuses a text that stands for its characters, although all types are right. -/
theorem readLambda_refuses_text :
    ∃ l cache, readLambda spellings none "new(iif(b, x, y).Min(it) as f)" = (.ok l, cache) ∧
      List.Forall₂ (fun v (p : Parameter) => Value.Conforms False v p.ty)
        [.boolean false, .sequence [], .sequence [.string "ab"]] spellings.params ∧
      l.evaluate noFunctions [.boolean false, .sequence [], .sequence [.string "ab"]] =
        .error (.record (.typeMismatch "f" "IEnumerable<Char>" "String")) := by
  have ends : (readLambda spellings none "new(iif(b, x, y).Min(it) as f)").1.toOption.map
      (fun l => error? (l.evaluate noFunctions
        [.boolean false, .sequence [], .sequence [.string "ab"]])) =
      some (some (.record (.typeMismatch "f" "IEnumerable<Char>" "String"))) := by decide +kernel
  obtain ⟨l, cache, read, error⟩ := ok_of_map ends
  refine ⟨l, cache, read, ?_, ?_⟩
  · refine .cons (.scalar rfl rfl rfl) (.cons (.sequence nofun) (.cons (.array ?_) .nil))
    simp only [List.forall_mem_cons]
    exact ⟨.scalar rfl rfl rfl, nofun⟩
  · unfold error? at error
    split at error
    · cases error
    · rename_i outcome
      rw [outcome]
      simpa using error

end Source
end TypedExpr
