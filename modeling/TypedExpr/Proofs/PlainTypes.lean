import TypedExpr.Proofs.Families

/-! # Types without classes of the host

The types that the host does not have to declare a class for. An enumeration numbers its members by
integers, and a type takes null in only once. They are a family: no member of such a type, and no
operation on it, leads to a class.
-/

namespace TypedExpr

/-- A type of the language itself, or a shape, an enumeration or a collection of such types. -/
inductive Ty.Plain : Ty → Prop where
  | predefined (p : Predefined) : Plain (.predefined p)
  | nullable {t} (h : Plain t) (hv : t.isValueType) (hn : t.isNullable = false) :
      Plain (.nullable t)
  | enum {e k} (h : e.underlying = .integer k) : Plain (.enum e)
  | record {r} (h : ∀ p ∈ r.properties, Plain p.ty) : Plain (.record r)
  | sequence {e} (h : Plain e) : Plain (.sequence e)
  | array {e} (h : Plain e) : Plain (.array e)
  | lambda {params result} (hp : ∀ t ∈ params, Plain t) (hr : Plain result) :
      Plain (.lambda params result)

namespace Catalog

/-- Above a plain type there is only `Object`. -/
theorem owner_of_plain {t owner : Ty} (h : t.Plain) (howner : owner ∈ selfAndBases t) :
    owner = t ∨ owner = .object := by
  cases h with
  | predefined p =>
      cases p <;> simp only [selfAndBases, List.mem_cons, List.not_mem_nil, or_false] at howner <;>
        first
          | exact howner
          | exact .inl howner
  | nullable | enum | record | sequence | array | lambda =>
      simpa [selfAndBases] using howner

/-- A property of a plain type is declared by the type itself: `Object` declares none. -/
theorem property?_declared {t : Ty} {name isStatic m} (h : t.Plain)
    (hm : property? t name isStatic = some m) :
    m ∈ declaredMembers t ∧ m.isStatic = isStatic := by
  obtain ⟨owner, howner, found⟩ := List.exists_of_findSome?_eq_some hm
  have mem := List.mem_of_find?_eq_some found
  have holds := List.find?_some found
  simp only [Bool.and_eq_true, beq_iff_eq] at holds
  rcases owner_of_plain h howner with rfl | rfl
  · exact ⟨mem, holds.1⟩
  · cases mem

theorem mem_recordMembers {ps : List Property} {index : Nat} {m : Member}
    (h : m ∈ recordMembers index ps) :
    ∃ i p, ps[i]? = some p ∧ m = ⟨p.name, p.ty, false, false, .field (index + i)⟩ := by
  induction ps generalizing index with
  | nil => cases h
  | cons p ps ih =>
      rcases List.mem_cons.mp h with rfl | h
      · exact ⟨0, p, rfl, rfl⟩
      · obtain ⟨i, q, hq, rfl⟩ := ih h
        exact ⟨i + 1, q, hq, by simp [Nat.add_assoc, Nat.add_comm 1 i]⟩

theorem members_named (p : Predefined) {m : Member} (hm : m ∈ declaredMembers (.predefined p)) :
    m.ty.isNamed := by
  have checked : (declaredMembers (.predefined p)).all (·.ty.isNamed) := by
    cases p <;> rfl
  exact List.all_eq_true.mp checked m hm

end Catalog

namespace Ty.Plain

open Catalog Source

theorem named {t : Ty} (h : NamedTy t) : t.Plain := by
  cases h with
  | predefined p => exact .predefined p
  | nullable hv => exact .nullable (.predefined _) hv rfl

theorem member {t : Ty} {m : Member} (h : t.Plain) (hm : m ∈ declaredMembers t) : m.ty.Plain := by
  cases h with
  | predefined p => exact named (.of_isNamed (members_named p hm))
  | nullable inner _ _ =>
      simp only [declaredMembers, List.mem_cons, List.not_mem_nil, or_false] at hm
      rcases hm with rfl | rfl
      · exact .predefined _
      · exact inner
  | array _ =>
      cases List.mem_singleton.mp hm
      exact .predefined _
  | record properties =>
      obtain ⟨i, p, hp, rfl⟩ := mem_recordMembers hm
      exact properties p (List.mem_of_getElem? hp)
  | enum | sequence | lambda => cases hm

theorem properties {r : RecordType} (h : (Ty.record r).Plain) : ∀ p ∈ r.properties, p.ty.Plain := by
  cases h with
  | record h => exact h

theorem element {t e : Ty} (h : t.Plain) (he : t.elementType? = some e) : e.Plain := by
  cases h with
  | sequence h | array h =>
      cases he
      exact h
  | predefined | nullable | enum | record | lambda => cases he

theorem indexer {t owner : Ty} {m : Method} (h : t.Plain) (howner : owner ∈ selfAndBases t)
    (hm : m ∈ declaredIndexers owner) : owner = .string ∧ m ∈ declaredIndexers .string := by
  rcases owner_of_plain h howner with rfl | rfl
  · cases h with
    | predefined p => cases p <;> first | exact ⟨rfl, hm⟩ | cases hm
    | nullable | enum | record | sequence | array | lambda => cases hm
  · cases hm

/-- The plain types are a family. -/
theorem family : Family Plain where
  named h := named h
  member h hm := h.member (property?_declared h hm).1
  element h he := h.element he
  sequence h := .sequence h
  record h := .record h
  indexer h howner hm := by
    obtain ⟨-, hm⟩ := h.indexer howner hm
    cases List.mem_singleton.mp hm
    exact ⟨by simp [onInstance, Method.ofBuiltin, Plain.predefined], .predefined _⟩
  lambda h := by
    cases h with
    | lambda hp hr => exact ⟨hp, hr⟩

end Ty.Plain

theorem Ty.isAssignableFrom_refl {t : Ty} (h : t.Plain) : t.isAssignableFrom t := by
  cases h with
  | predefined p => cases p <;> simp [Ty.isAssignableFrom]
  | nullable | enum | record | sequence | array | lambda => simp [Ty.isAssignableFrom]

end TypedExpr
