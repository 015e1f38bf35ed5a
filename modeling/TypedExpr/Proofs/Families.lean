import TypedExpr.Operand.Member
import TypedExpr.Operand.Operator
import TypedExpr.Proofs.Derivation
import TypedExpr.Proofs.Promotion

/-! # Families of types

A set of types that is left by no member, element, record or operation. The types that a text can
name belong to every family, and with them all types that predefined methods and operators mention.
Whatever is read from parameters and externals with types of a family has a type of the family.
-/

namespace TypedExpr

open Source

/-- The text can name the type: the test of `NamedTy`. -/
def Ty.isNamed : Ty → Bool
  | .predefined _ => true
  | .nullable (.predefined p) => (predefined p).isValueType
  | _ => false

theorem Source.NamedTy.of_isNamed {t : Ty} (h : t.isNamed) : NamedTy t := by
  unfold Ty.isNamed at h
  split at h
  · exact .predefined _
  · exact .nullable h
  · cases h

/-- All types that the declaration of a method mentions are types that a text can name. -/
def Method.isNamed (m : Method) : Bool :=
  m.params.all (·.ty.isNamed) && (m.result.getD .object).isNamed

namespace Catalog

theorem methods_named {owner : Ty} {m : Method} (hp : isPredefined owner)
    (hm : m ∈ declaredMethods owner) : m.isNamed := by
  have checked : ∀ p, (declaredMethods (.predefined p)).all Method.isNamed := by
    intro p
    cases p <;> rfl
  cases owner with
  | predefined p => exact List.all_eq_true.mp (checked p) m hm
  | _ => cases hp

theorem constructors_named {t : Ty} {m : Method} (ht : NamedTy t) (hm : m ∈ constructors t) :
    m.isNamed := by
  have checked : ∀ p, (constructors (.predefined p)).all Method.isNamed := by
    intro p
    cases p <;> rfl
  cases ht with
  | predefined p => exact List.all_eq_true.mp (checked p) m hm
  | nullable => cases hm

end Catalog

theorem OperatorClass.layers_named (c : OperatorClass) {layer m} (hl : layer ∈ c.layers)
    (hm : m ∈ layer) : m.isNamed := by
  have checked : c.layers.all fun layer => layer.all Method.isNamed := by
    cases c <;> rfl
  exact List.all_eq_true.mp (List.all_eq_true.mp checked layer hl) m hm

namespace AggregateOp

theorem operands_named {op : AggregateOp} {types t} (h : types ∈ op.operands) (ht : t ∈ types) :
    NamedTy t := by
  have checked : op.operands.all fun types => types.all Ty.isNamed := by
    cases op <;> rfl
  exact .of_isNamed (List.all_eq_true.mp (List.all_eq_true.mp checked types h) t ht)

theorem averageTy_named {t : Ty} (h : [t] ∈ operands .average) :
    t.isValueType ∧ NamedTy (averageTy t) := by
  have checked : (operands .average).all fun types => types.all fun t =>
      t.isValueType && (averageTy t).isNamed := by rfl
  have number := List.all_eq_true.mp (List.all_eq_true.mp checked [t] h) t (by simp)
  simp only [Bool.and_eq_true] at number
  exact ⟨number.1, .of_isNamed number.2⟩

end AggregateOp

/-- A set of types that is left by nothing that an expression can do with a value. -/
structure Ty.Family (T : Ty → Prop) : Prop where
  named {t} (h : NamedTy t) : T t
  member {t : Ty} {name isStatic m} (h : T t) (hm : Catalog.property? t name isStatic = some m) :
    T m.ty
  element {t e : Ty} (h : T t) (he : t.elementType? = some e) : T e
  sequence {e} (h : T e) : T (.sequence e)
  record {r : RecordType} (h : ∀ p ∈ r.properties, T p.ty) : T (.record r)
  indexer {t owner : Ty} {m} (h : T t) (howner : owner ∈ Catalog.selfAndBases t)
    (hm : m ∈ Catalog.declaredIndexers owner) :
    (∀ p ∈ m.params, T p.ty) ∧ T (m.result.getD .object)
  lambda {params result} (h : T (.lambda params result)) : (∀ p ∈ params, T p) ∧ T result

namespace Ty.Family

variable {T : Ty → Prop}

theorem predefined (f : Family T) (p : Predefined) : T (.predefined p) := f.named (.predefined p)

theorem method {m : Method} (f : Family T) (h : m.isNamed) :
    (∀ p ∈ m.params, T p.ty) ∧ T (m.result.getD .object) := by
  simp only [Method.isNamed, Bool.and_eq_true, List.all_eq_true] at h
  exact ⟨fun p hp => f.named (.of_isNamed (h.1 p hp)), f.named (.of_isNamed h.2)⟩

theorem itemTy {t e : Ty} (f : Family T) (h : T t) (he : Operand.itemTy? t = some e) : T e := by
  simp only [Operand.itemTy?] at he
  split at he
  · cases he
  · exact f.element h he

theorem arithmetic {op : BinaryOp} {l r : Ty} (f : Family T) (h : T l) :
    T (Operand.resultTy op l r) := by
  simp only [Operand.resultTy]
  split
  · split
    · exact f.named (.nullable rfl)
    · exact f.predefined _
  · exact h

theorem bare {op : AggregateOp} {element : Ty} (f : Family T) (h : [] ∈ op.operands) :
    T (op.resultTy element none) := by
  cases op with
  | any | count => exact f.predefined _
  | filter | all | min | max | sum | average =>
      simp [AggregateOp.operands, OperatorClass.withNull] at h

theorem aggregate {op : AggregateOp} {element body t : Ty} (f : Family T) (he : T element)
    (h : [t] ∈ op.operands) (hb : T body) (fit : body.Fits t) :
    T (op.resultTy element (some body)) := by
  cases op with
  | filter => exact f.sequence he
  | any | all | count => exact f.predefined _
  | min | max | sum => exact hb
  | average =>
      obtain ⟨value, named⟩ := AggregateOp.averageTy_named h
      cases fit.eq (.inl value)
      exact f.named named

theorem all : Family fun _ => True where
  named _ := trivial
  member _ _ := trivial
  element _ _ := trivial
  sequence _ := trivial
  record _ := trivial
  indexer _ _ _ := ⟨fun _ _ => trivial, trivial⟩
  lambda _ := ⟨fun _ _ => trivial, trivial⟩

end Ty.Family

end TypedExpr
