import TypedExpr.Proofs.Everywhere
import TypedExpr.Proofs.Families
import TypedExpr.Proofs.Promotion

/-! # The nodes that the grammar makes

What is true of a node by itself when the grammar has made it: which member, method or signature
its parts were matched with, and in which types. Parameters and functions are not among these
nodes, as they come from outside. A property that all these nodes have, and that the parts from
outside have, is a property of every node of an expression that is read.
-/

namespace TypedExpr

open Source

/-- The arguments can be passed for the parameters of a method. -/
def Expr.Fit (args : List Expr) (m : Method) : Prop :=
  List.Forall₂ (fun a p => a.ty.Fits p.ty) args m.params

/-- The operands have the types of one of the signatures of a class of operators. -/
def OperatorClass.Accepts (c : OperatorClass) (types : List Ty) : Prop :=
  ∃ layer ∈ c.layers, ∃ m ∈ layer, m.paramTypes = types

/-- A test that all signatures of a class pass is passed by the operands that it accepts. -/
theorem OperatorClass.Accepts.check {c : OperatorClass} {types : List Ty} (h : c.Accepts types)
    (test : List Ty → Bool) (checked : c.layers.all fun layer => layer.all (test ·.paramTypes)) :
    test types := by
  obtain ⟨layer, hlayer, m, hm, rfl⟩ := h
  exact List.all_eq_true.mp (List.all_eq_true.mp checked layer hlayer) m hm

/-- The types are that of one operand, and pass a test. -/
def OperatorClass.onOne (test : Ty → Bool) : List Ty → Bool
  | [t] => test t
  | _ => false

/-- The types are those of two operands, and pass a test. -/
def OperatorClass.onTwo (test : Ty → Ty → Bool) : List Ty → Bool
  | [s, t] => test s t
  | _ => false

/-- A conversion that is asked for is possible between the types, and is checked or not. -/
inductive Ty.Castable (s t : Ty) : Bool → Prop where
  | null (h : Operand.differInNull s t) : Castable s t false
  | number (hs : s.isValueType) (ht : t.isValueType)
      (h : Operand.isNumberLike s && Operand.isNumberLike t) : Castable s t true
  | reference (h : s.isAssignableFrom t || t.isAssignableFrom s || Operand.isInterface s ||
      Operand.isInterface t) : Castable s t false

/-- The operands of a comparison, both of one type: equal references, operands of a signature, or
    operands of which one is of an enumeration and the other has gone to its type, or it to the
    type of the other; there the word `null` can be of any type. -/
inductive Expr.Related : BinaryOp → Expr → Expr → Prop where
  | equality {op l r} (hop : Operand.isEquality op) : Related op l r
  | signature {op l r} (h : (OperatorClass.ofBinary op).Accepts [l.ty, r.ty]) : Related op l r
  | enums {op l r} (h : l.ty.isEnum) : Related op l r
  | leftNull {op r} : Related op (.constant .null r.ty) r
  | rightNull {op l} : Related op l (.constant .null l.ty)
  | leftEnum {op l r} (h : l.ty.isEnum) (hc : l.ty.convertsTo r.ty) :
      Related op (.convert false l r.ty) r
  | rightEnum {op l r} (h : r.ty.isEnum) (hc : r.ty.convertsTo l.ty) :
      Related op l (.convert false r l.ty)

theorem Lambda.ty_eq (l : Lambda) : l.ty = .lambda (l.params.map (·.ty)) l.resultTy := by
  cases l
  rfl

/-- The nodes that the grammar makes. -/
inductive Expr.Formed : Expr → Prop where
  | constant {v t} (hs : v.isScalar) (hv : v.conformsTo t) : Formed (.constant v t)
  | member {target : Expr} {m name} (h : Catalog.property? target.ty name false = some m) :
      Formed (.member (some target) target.ty m)
  | staticMember {t m name} (ht : NamedTy t) (h : Catalog.property? t name true = some m) :
      Formed (.member none t m)
  | call {target : Expr} {owner m args} (howner : owner ∈ Catalog.selfAndBases target.ty)
      (hp : Catalog.isPredefined owner) (hm : m ∈ Catalog.declaredMethods owner)
      (hi : m.isStatic = false) (hr : m.result.isSome) (hargs : Fit args m) :
      Formed (.call (some target) owner m args)
  | staticCall {owner m args} (hp : Catalog.isPredefined owner)
      (hm : m ∈ Catalog.declaredMethods owner) (hi : m.isStatic) (hr : m.result.isSome)
      (hargs : Fit args m) : Formed (.call none owner m args)
  | indexer {target : Expr} {owner m args} (howner : owner ∈ Catalog.selfAndBases target.ty)
      (hm : m ∈ Catalog.declaredIndexers owner) (hargs : Fit args m) :
      Formed (.call (some target) owner m args)
  | arrayIndex {target index : Expr} {element} (ht : target.ty = .array element)
      (hi : index.ty = .int32) : Formed (.arrayIndex target index element)
  | new {t m args} (ht : NamedTy t) (hm : m ∈ Catalog.constructors t) (hargs : Fit args m) :
      Formed (.new m args)
  | unary {op operand} (h : (Operand.unaryClass op).Accepts [operand.ty]) :
      Formed (.unary op operand)
  | comparison {op l r} (hop : op.isComparison) (same : l.ty = r.ty) (h : Related op l r) :
      Formed (.binary op l r .boolean)
  | arithmetic {op l r} (hop : op.isComparison = false)
      (h : (OperatorClass.ofBinary op).Accepts [l.ty, r.ty]) :
      Formed (.binary op l r (Operand.resultTy op l.ty r.ty))
  | conditional {test whenTrue whenFalse} (htest : test.ty = .boolean)
      (same : whenTrue.ty = whenFalse.ty) : Formed (.conditional test whenTrue whenFalse)
  | implicit {e t} (h : e.ty.convertsTo t) : Formed (.convert false e t)
  | explicit {checked e t} (ht : NamedTy t) (h : Ty.Castable e.ty t checked) :
      Formed (.convert checked e t)
  | invoke {l args} (hargs : List.Forall₂ (fun a p => a.ty.Fits p.ty) args l.params) :
      Formed (.invoke (.lambda l) args l.resultTy)
  | newRecord {r fields} (h : r.properties.map (·.ty) = fields.map Expr.ty) :
      Formed (.newRecord r fields)
  | bare {source : Expr} {op element} (hi : Operand.itemTy? source.ty = some element)
      (hop : [] ∈ AggregateOp.operands op) :
      Formed (.aggregate source op none (op.resultTy element none))
  | aggregate {source : Expr} {op item body t} (hi : Operand.itemTy? source.ty = some item.ty)
      (hop : [t] ∈ AggregateOp.operands op) (hbody : body.ty.Fits t) :
      Formed (.aggregate source op (some ⟨[item], body⟩) (op.resultTy item.ty (some body.ty)))

/-- A constant is one that a literal can be. -/
def Expr.Written : Expr → Prop
  | constant v _ => v.isWritten
  | _ => True

/-- A property of nodes that the grammar keeps in expressions with types of a family: its own nodes
    have it, of constants those that literals can be, it does not depend on parameters further out,
    and the item of an operation can be used within, without hiding the parameters that are
    there. -/
structure Closed (T : Ty → Prop) (P : List Parameter → Expr → Prop) : Prop where
  family : Ty.Family T
  ty {Γ e} (h : P Γ e) : T e.ty
  formed {Γ e} (h : e.Formed) (hw : e.Written) (ht : T e.ty) : P Γ e
  weaken {Γ Δ e} (h : P Γ e) : P (Γ ++ Δ) e
  item {Γ item} (ht : T item.ty) : P (item :: Γ) (.parameter item)
  within {Γ p item} (h : P Γ (.parameter p)) (hid : p.id < item.id) : P (item :: Γ) (.parameter p)

/-- The constants that literals can be have the property. -/
theorem Closed.written {T : Ty → Prop} {P : List Parameter → Expr → Prop} {Γ : List Parameter}
    {v : Value} {t : Ty} (c : Closed T P) (hw : v.isWritten) (hv : v.conformsTo t) (ht : T t) :
    P Γ (.constant v t) :=
  c.formed (.constant (Value.isScalar_of_isWritten hw) hv) hw ht

/-- The expression of an operand has the property everywhere. -/
abbrev Operand.Good (P : List Parameter → Expr → Prop) (Γ : List Parameter) (o : Operand) : Prop :=
  o.expr.Everywhere P Γ

/-- All operands of operators are of value types or texts. -/
theorem OperatorClass.rigid (c : OperatorClass) : ∀ layer ∈ c.layers, ∀ m ∈ layer, ∀ p ∈ m.params,
    p.ty.isValueType ∨ p.ty = .string := by
  have checked : c.layers.all fun layer => layer.all fun m => m.params.all fun p =>
      p.ty.isValueType || decide (p.ty = .string) := by
    cases c <;> rfl
  simpa [List.all_eq_true] using checked

namespace Overload

/-- Operands that fit parameters of no reference type but that of texts have their types. -/
private theorem types_eq {passed : List Operand} {params : List Param}
    (fits : List.Forall₂ (fun a p => a.ty.Fits p.ty) passed params)
    (rigid : ∀ p ∈ params, p.ty.isValueType ∨ p.ty = .string) :
    params.map (·.ty) = passed.map Operand.ty := by
  induction fits with
  | nil => rfl
  | cons fit _ ih =>
      rw [List.map_cons, List.map_cons, ih fun p hp => rigid p (List.mem_cons_of_mem _ hp),
        fit.eq (rigid _ List.mem_cons_self)]

/-- Operands that a signature of operators is chosen for have just its types. -/
theorem Passed.accepted {c : OperatorClass} {args passed : List Operand} {layer m}
    (hl : layer ∈ c.layers) (hm : m ∈ layer) (h : Passed args m.params passed) :
    c.Accepts (passed.map Operand.ty) :=
  ⟨layer, hl, m, hm, types_eq h.fits (c.rigid layer hl m hm)⟩

theorem Passed.fit {args passed : List Operand} {m : Method} (h : Passed args m.params passed) :
    Expr.Fit (passed.map (·.expr)) m :=
  List.forall₂_map_left_iff.mpr h.fits

end Overload

section Operands

variable {T : Ty → Prop} {P : List Parameter → Expr → Prop} {Γ : List Parameter}

open Operand Expr AggregateOp

theorem Operand.Good.ty {o : Operand} (h : o.Good P Γ) (c : Closed T P) : T o.ty := c.ty h.root

theorem Operand.Promoted.good {o o' : Operand} {t} (c : Closed T P) (h : Promoted o t o')
    (ho : o.Good P Γ) (ht : T t) : o'.Good P Γ := by
  cases h with
  | same => exact ho
  | literal hw hv _ => exact c.written hw hv ht
  | converted converts => exact ⟨c.formed (.implicit converts) trivial ht, ho⟩

theorem Overload.Passed.good {args passed : List Operand} {params} (c : Closed T P)
    (h : Overload.Passed args params passed) (hargs : ∀ a ∈ args, a.Good P Γ)
    (hparams : ∀ p ∈ params, T p.ty) : ∀ a ∈ passed, a.Good P Γ := by
  intro a' ha'
  obtain ⟨a, ha, p, hp, promoted⟩ := h.promoted a' ha'
  exact promoted.good c (hargs a ha) (hparams p hp)

theorem Overload.Passed.inAll {args passed : List Operand} {params} (c : Closed T P)
    (h : Overload.Passed args params passed) (hargs : ∀ a ∈ args, a.Good P Γ)
    (hparams : ∀ p ∈ params, T p.ty) : InAll P Γ (passed.map (·.expr)) := by
  rw [inAll_iff]
  intro e he
  obtain ⟨a, ha, rfl⟩ := List.mem_map.mp he
  exact h.good c hargs hparams a ha

end Operands
end TypedExpr
