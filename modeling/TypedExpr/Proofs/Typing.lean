import TypedExpr.Expr.Text
import TypedExpr.Proofs.Closure

/-! # Typing rules

An expression carries its types with it; here is what it takes for them to be right, node by node.
Whatever is read obeys these rules, through every choice of an overload and every promotion of an
argument, provided that the expressions which the host has given do. There is no text that is read
as an expression with a type that is wrong, or missing, somewhere inside.
-/

namespace TypedExpr.Expr

open Source

/-- Operands of arithmetic have one type, but spans of time are added to dates and taken from
    them. -/
def SameOperands (op : BinaryOp) (l r : Ty) : Prop :=
  l = r ∨ (op = .add ∨ op = .subtract) ∧
    (l = .dateTime ∧ r = .timeSpan ∨ l = .nullable .dateTime ∧ r = .nullable .timeSpan)

/-- The typing rule of each kind of node. -/
inductive Rule : Expr → Prop where
  | constant {v t} (h : v.conformsTo t) : Rule (.constant v t)
  | parameter {p} : Rule (.parameter p)
  | member {target : Option Expr} {owner m name} (htarget : ∀ e ∈ target, e.ty = owner)
      (h : Catalog.property? owner name target.isNone = some m) : Rule (.member target owner m)
  | call {target : Option Expr} {owner m args}
      (htarget : ∀ e ∈ target, owner ∈ Catalog.selfAndBases e.ty)
      (hm : m ∈ Catalog.declaredMethods owner ∨ m ∈ Catalog.declaredIndexers owner)
      (hargs : Fit args m) : Rule (.call target owner m args)
  | arrayIndex {target index : Expr} {element} (htarget : target.ty = .array element)
      (hindex : index.ty = .int32) : Rule (.arrayIndex target index element)
  | new {t m args} (hm : m ∈ Catalog.constructors t) (hargs : Fit args m) : Rule (.new m args)
  | unary {op operand} (h : (Operand.unaryClass op).Accepts [operand.ty]) :
      Rule (.unary op operand)
  | comparison {op} {l r : Expr} (hop : op.isComparison) (same : l.ty = r.ty) :
      Rule (.binary op l r .boolean)
  | arithmetic {op} {l r : Expr} (hop : op.isComparison = false)
      (same : SameOperands op l.ty r.ty)
      (h : (OperatorClass.ofBinary op).Accepts [l.ty, r.ty]) :
      Rule (.binary op l r (Operand.resultTy op l.ty r.ty))
  | conditional {test whenTrue whenFalse : Expr} (htest : test.ty = .boolean)
      (htrue : whenTrue.ty = (conditional test whenTrue whenFalse).ty)
      (hfalse : whenFalse.ty = (conditional test whenTrue whenFalse).ty) :
      Rule (.conditional test whenTrue whenFalse)
  | implicit {e : Expr} {t} (h : e.ty.convertsTo t) : Rule (.convert false e t)
  | explicit {checked e t} (h : Ty.Castable e.ty t checked) : Rule (.convert checked e t)
  | lambda {l} : Rule (.lambda l)
  | invoke {f : Expr} {args params result} (hf : f.ty = .lambda params result)
      (hargs : List.Forall₂ (fun a p => a.ty.Fits p) args params) : Rule (.invoke f args result)
  | newRecord {r fields} (h : r.properties.map (·.ty) = fields.map Expr.ty) :
      Rule (.newRecord r fields)
  | bare {source : Expr} {op element} (hsource : Operand.itemTy? source.ty = some element)
      (hop : [] ∈ AggregateOp.operands op) :
      Rule (.aggregate source op none (op.resultTy element none))
  | aggregate {source : Expr} {op item body t}
      (hsource : Operand.itemTy? source.ty = some item.ty)
      (hop : [t] ∈ AggregateOp.operands op) (hbody : body.ty.Fits t) :
      Rule (.aggregate source op (some ⟨[item], body⟩) (op.resultTy item.ty (some body.ty)))

/-- Every node obeys the rule of its kind. -/
def WellTyped (e : Expr) : Prop := e.Everywhere (fun _ => Rule) []

/-- The signatures of arithmetic and logic take operands of one type, but for dates. -/
theorem sameOperands_of_accepts {op : BinaryOp} {l r : Ty} (hop : op.isComparison = false)
    (h : (OperatorClass.ofBinary op).Accepts [l, r]) : SameOperands op l r := by
  have signature := h.check (fun types =>
    types.all (fun s => types.all fun t => decide (s = t)) ||
      (decide (op = .add) || decide (op = .subtract)) &&
        (decide (types = [.dateTime, .timeSpan]) ||
          decide (types = [.nullable .dateTime, .nullable .timeSpan])))
    (by cases op <;> first | exact absurd hop (by decide) | rfl)
  simp only [Bool.or_eq_true, Bool.and_eq_true, decide_eq_true_eq, List.all_cons, List.all_nil,
    List.cons.injEq, and_true] at signature
  rcases signature with same | dates
  · exact .inl same.1.2
  · exact .inr dates

/-- Every node that the grammar makes obeys its rule. -/
theorem Formed.rule {e : Expr} (h : e.Formed) : Rule e := by
  cases h with
  | constant _ hv => exact .constant hv
  | member h => exact .member (by simp) h
  | staticMember _ h => exact .member (by simp) h
  | call howner _ hm _ _ hargs => exact .call (by simpa using howner) (.inl hm) hargs
  | staticCall _ hm _ _ hargs => exact .call (by simp) (.inl hm) hargs
  | indexer howner hm hargs => exact .call (by simpa using howner) (.inr hm) hargs
  | arrayIndex ht hi => exact .arrayIndex ht hi
  | new _ hm hargs => exact .new hm hargs
  | unary h => exact .unary h
  | comparison hop same _ => exact .comparison hop same
  | arithmetic hop h => exact .arithmetic hop (sameOperands_of_accepts hop h) h
  | conditional htest same => exact .conditional htest rfl same.symm
  | implicit h => exact .implicit h
  | explicit _ h => exact .explicit h
  | @invoke l args hargs =>
      cases l
      exact .invoke rfl (List.forall₂_map_right_iff.mpr hargs)
  | newRecord h => exact .newRecord h
  | bare hi hop => exact .bare hi hop
  | aggregate hi hop hbody => exact .aggregate hi hop hbody

theorem rule_closed : Closed (fun _ => True) fun _ => Rule where
  family := .all
  ty _ := trivial
  formed h _ _ := h.rule
  weaken h := h
  item _ := .parameter
  within h _ := h

end TypedExpr.Expr

namespace TypedExpr.Source

open Expr

/-- Every expression that is read is well typed at each of its nodes, and has just the type that
    was asked for. -/
theorem readExpr_wellTyped {c resultTy text e cache}
    (hgiven : ∀ e', Given c.values (.expr e') → e'.WellTyped)
    (h : readExpr c resultTy text = (.ok e, cache)) :
    e.WellTyped ∧ ∀ t, resultTy = some t → e.ty = t := by
  refine readExpr_good rule_closed (fun _ _ => .parameter) (fun x hx => ?_) (by simp) h
  cases x with
  | value v => exact .constant v.conformsTo_typeOf
  | expr e' => exact hgiven e' hx
  | symbols table => trivial

/-- One number is in scope, under the name `x`. -/
private def oneNumber : Context := ⟨[⟨0, "x", .int32⟩], [], 3, .empty none⟩

theorem readExpr_wellTyped_sum :
    ∃ e cache, readExpr oneNumber (some .int64) "x + 1" = (.ok e, cache) ∧
      e.toText = "Convert((x + 1), Int64)" ∧ e.WellTyped ∧ e.ty = .int64 := by
  have shows : (readExpr oneNumber (some .int64) "x + 1").1.toOption.map Expr.toText =
      some "Convert((x + 1), Int64)" := by decide +kernel
  obtain ⟨e, cache, read, shown⟩ := ok_of_map shows
  obtain ⟨typed, requested⟩ := readExpr_wellTyped (fun e' h => absurd h not_given_nil) read
  exact ⟨e, cache, read, shown, typed, requested _ rfl⟩

end TypedExpr.Source
