import TypedExpr.Overload
import TypedExpr.Operand.Literal
import Mathlib.Data.List.Forall2

/-! # Promotion and the choice of an overload

A promoted operand is the operand itself, the constant that its literal becomes, or its conversion.
It has the type that is asked for, or stays below it where references are asked for. An overload
that is chosen is one of those given, with one promoted argument for each of its parameters.
-/

namespace TypedExpr

/-- A part of type `s` can be passed where type `p` is asked for. -/
def Ty.Fits (s p : Ty) : Prop := s = p ∨ p.isValueType = false ∧ s.convertsTo p

/-- A type that no other type goes to as a reference is fitted by itself only. -/
theorem Ty.Fits.eq {s p : Ty} (h : s.Fits p) (hp : p.isValueType ∨ p = .string) : s = p := by
  rcases h with same | ⟨reference, converts⟩
  · exact same
  · rcases hp with hp | rfl
    · rw [reference] at hp
      cases hp
    · simp only [Ty.convertsTo, Ty.isAssignableFrom] at converts
      split at converts
      · assumption
      · simpa [eq_comm, Ty.isValueType] using converts

/-- A value without parts: neither a record, a sequence nor an object of the host. -/
def Value.isScalar : Value → Bool
  | .record .. | .sequence _ | .hosted .. => false
  | _ => true

/-- A value of a kind that literals have: no date, no span of time, no identifier, and scalar. -/
def Value.isWritten : Value → Bool
  | .dateTime _ | .timeSpan _ | .guid _ => false
  | v => v.isScalar

namespace Value

theorem isScalar_of_isWritten {v : Value} (h : v.isWritten) : v.isScalar := by
  cases v <;> first | rfl | cases h

theorem conformsTo_typeOf (v : Value) : v.conformsTo v.typeOf := by
  cases v with
  | hosted i c ms items =>
      cases c
      simp [typeOf, conformsTo, ClassType.derivesFrom]
  | _ => simp [typeOf, conformsTo]

/-- Null conforms to references and to types with null. -/
theorem null_conformsTo {t : Ty} (h : t.isValueType = false ∨ t.isNullable) :
    Value.null.conformsTo t := by
  cases t with
  | predefined p => cases p <;> first | rfl | simp [Ty.isValueType, Ty.isNullable] at h
  | enum e => simp [Ty.isValueType, Ty.isNullable] at h
  | _ => rfl

/-- A value that conforms to a type conforms to it with null. -/
theorem conformsTo_of_nonNullable {v : Value} {t : Ty} (h : v.conformsTo t.nonNullable) :
    v.conformsTo t := by
  cases t with
  | nullable inner => simpa [conformsTo] using .inr h
  | _ => exact h

theorem ofPredefinedNumber?_some {cs p v} (h : ofPredefinedNumber? cs p = some v) :
    v.isWritten ∧ v.typeOf = .predefined p := by
  cases p <;> simp only [ofPredefinedNumber?, Option.map_eq_some_iff, reduceCtorEq] at h
  all_goals
    obtain ⟨_, -, rfl⟩ := h
    exact ⟨rfl, rfl⟩

/-- A text is read as a value that literals have, of the type that is asked for. -/
theorem numberOfType?_some {cs v} : ∀ {t : Ty} {stripped : Bool},
    numberOfType? cs stripped t = some v → v.isWritten ∧ v.conformsTo t
  | .predefined p, _, h => by
      obtain ⟨hs, ht⟩ := ofPredefinedNumber?_some h
      exact ⟨hs, ht ▸ v.conformsTo_typeOf⟩
  | .nullable inner, stripped, h => by
      cases stripped with
      | true => cases h
      | false =>
          obtain ⟨hs, ht⟩ := numberOfType?_some (t := inner) h
          exact ⟨hs, conformsTo_of_nonNullable ht⟩
  | .enum ⟨id, name, underlying, members⟩, _, h => by
      simp only [numberOfType?, Option.bind_eq_bind, Option.bind_eq_some_iff] at h
      obtain ⟨raw, -, n, -, w, -, h⟩ := h
      cases h
      exact ⟨rfl, conformsTo_typeOf _⟩
  | .record _, _, h | .cls _, _, h | .sequence _, _, h | .array _, _, h | .lambda .., _, h => by
      cases h

theorem ofMemberName?_some {name v} {t : Ty} (h : ofMemberName? name t = some v) :
    v.isWritten ∧ v.conformsTo t := by
  simp only [ofMemberName?] at h
  split at h
  · rename_i e he
    obtain ⟨n, -, rfl⟩ := Option.map_eq_some_iff.mp h
    exact ⟨rfl, conformsTo_of_nonNullable (he ▸ conformsTo_typeOf _)⟩
  · cases h

end Value

namespace Operand

theorem reread?_some {text source target v} (h : reread? text source target = some v) :
    v.isWritten ∧ v.conformsTo target := by
  simp only [reread?] at h
  split at h
  · exact Value.numberOfType?_some h
  · exact Value.numberOfType?_some h
  · exact Value.numberOfType?_some h
  · exact Value.numberOfType?_some h
  · split at h
    · exact Value.numberOfType?_some h
    · cases h
  · exact Value.ofMemberName?_some h
  · cases h

/-- The constant that a literal becomes is such a value of the type that is asked for. -/
theorem asLiteralOf?_some {o : Operand} {t v} (h : o.asLiteralOf? t = some v) :
    v.isWritten ∧ v.conformsTo t := by
  simp only [asLiteralOf?] at h
  split at h
  · cases h
  · obtain ⟨hs, hv⟩ := reread?_some h
    exact ⟨hs, Value.conformsTo_of_nonNullable hv⟩
  · split at h
    · rename_i ht
      cases h
      exact ⟨rfl, Value.null_conformsTo (by simpa using ht)⟩
    · cases h

/-- No literal but the word `null` can be of an enumeration before it is read again. -/
theorem asLiteralOf?_enum {o : Operand} {t v} (h : o.asLiteralOf? t = some v) :
    v = .null ∨ o.ty.isEnum = false := by
  simp only [asLiteralOf?] at h
  split at h
  · cases h
  · refine .inr ?_
    simp only [reread?] at h
    split at h
    all_goals first
      | rename_i hty; rw [hty]; rfl
      | cases h
  · split at h
    · cases h
      exact .inl rfl
    · cases h

/-- What an operand can become where `t` is asked for. -/
inductive Promoted (o : Operand) (t : Ty) : Operand → Prop where
  | same : Promoted o t o
  | literal {v} (hw : v.isWritten) (hv : v.conformsTo t) (he : v = .null ∨ o.ty.isEnum = false) :
      Promoted o t (plain (.constant v t))
  | converted (h : o.ty.convertsTo t) : Promoted o t (plain (.convert false o.expr t))

theorem promote?_some {o o' : Operand} {t exact} (h : o.promote? t exact = some o') :
    Promoted o t o' ∧ if exact then o'.ty = t else o'.ty.Fits t := by
  simp only [promote?] at h
  split at h
  · rename_i same
    cases h
    exact ⟨.same, by cases exact <;> simp [same, Ty.Fits]⟩
  · split at h
    · rename_i v hv
      cases h
      obtain ⟨hw, hv⟩ := asLiteralOf?_some hv
      refine ⟨.literal hw hv (asLiteralOf?_enum ‹_›), ?_⟩
      cases exact <;> simp [plain, ty, Expr.ty, Ty.Fits]
    · split at h
      · rename_i converts
        split at h
        · cases h
          exact ⟨.converted converts, by cases exact <;> simp [plain, ty, Expr.ty, Ty.Fits]⟩
        · rename_i reference
          cases h
          simp only [Bool.or_eq_true, not_or, Bool.not_eq_true] at reference
          exact ⟨.same, by simp [reference.2, Ty.Fits, reference.1, converts]⟩
      · cases h

theorem promote?_exact {o o' : Operand} {t} (h : o.promote? t true = some o') :
    Promoted o t o' ∧ o'.ty = t := by
  simpa using promote?_some h

theorem promote?_fits {o o' : Operand} {t} (h : o.promote? t false = some o') :
    Promoted o t o' ∧ o'.ty.Fits t := by
  simpa using promote?_some h

end Operand

namespace Overload

/-- The arguments in the types of the parameters of an overload: one for each, and each promoted
    from one that was given. -/
structure Passed (args : List Operand) (params : List Param) (passed : List Operand) : Prop where
  fits : List.Forall₂ (fun a p => a.ty.Fits p.ty) passed params
  promoted : ∀ a' ∈ passed, ∃ a ∈ args, ∃ p ∈ params, Operand.Promoted a p.ty a'

theorem promoteAll?_some : ∀ {params args passed}, promoteAll? params args = some passed →
    Passed args params passed
  | [], [], _, h => by
      cases h
      exact ⟨.nil, by simp⟩
  | p :: ps, a :: as, _, h => by
      simp only [promoteAll?, Option.bind_eq_bind] at h
      split at h
      · cases h
      · obtain ⟨a', ha, h⟩ := Option.bind_eq_some_iff.mp h
        obtain ⟨as', has, h⟩ := Option.bind_eq_some_iff.mp h
        cases h
        obtain ⟨hp, hf⟩ := Operand.promote?_fits ha
        obtain ⟨fits, promoted⟩ := promoteAll?_some has
        refine ⟨.cons hf fits, ?_⟩
        intro b hb
        rcases List.mem_cons.mp hb with rfl | hb
        · exact ⟨a, by simp, p, by simp, hp⟩
        · obtain ⟨c, hc, q, hq, promoted⟩ := promoted b hb
          exact ⟨c, by simp [hc], q, by simp [hq], promoted⟩
  | [], _ :: _, _, h | _ :: _, [], _, h => by cases h

theorem candidate?_some {args m c} (h : candidate? args m = some c) :
    c.method = m ∧ Passed args m.params c.args := by
  obtain ⟨passed, hp, rfl⟩ := Option.map_eq_some_iff.mp h
  exact ⟨rfl, promoteAll?_some hp⟩

theorem mem_of_mem_best {args candidates c} (h : c ∈ best args candidates) : c ∈ candidates := by
  obtain ⟨⟨d, i⟩, hd, rfl⟩ := List.mem_map.mp h
  exact List.fst_mem_of_mem_zipIdx (List.mem_filter.mp hd).1

theorem resolve_found {α : Type} {place place' : α} {methods args m passed}
    (h : resolve place methods args = .found place' m passed) :
    place' = place ∧ m ∈ methods ∧ Passed args m.params passed := by
  have applies : ∀ c ∈ methods.filterMap (candidate? args),
      c.method ∈ methods ∧ Passed args c.method.params c.args := by
    intro c hc
    obtain ⟨n, hn, hc⟩ := List.mem_filterMap.mp hc
    obtain ⟨rfl, hpassed⟩ := candidate?_some hc
    exact ⟨hn, hpassed⟩
  simp only [resolve] at h
  split at h
  · cases h
  · rename_i c only
    cases h
    exact ⟨rfl, applies c (by simp [only])⟩
  · split at h
    · rename_i c only
      cases h
      exact ⟨rfl, applies c (mem_of_mem_best (by rw [only]; simp))⟩
    · cases h

theorem resolveLayers_found {α : Type} {methodsOf : α → List Method} {args layers place m passed}
    (h : resolveLayers methodsOf args layers = .found place m passed) :
    place ∈ layers ∧ m ∈ methodsOf place ∧ Passed args m.params passed := by
  induction layers with
  | nil => cases h
  | cons layer rest ih =>
      simp only [resolveLayers] at h
      split at h
      · obtain ⟨hl, hm⟩ := ih h
        exact ⟨by simp [hl], hm⟩
      · obtain ⟨rfl, hm⟩ := resolve_found h
        exact ⟨by simp, hm⟩

/-- Each argument is promoted at its place. -/
theorem promoteAll?_places : ∀ {params args passed}, promoteAll? params args = some passed →
    List.Forall₂ (fun a a' => ∃ t, Operand.Promoted a t a') args passed
  | [], [], _, h => by
      cases h
      exact .nil
  | p :: ps, a :: as, _, h => by
      simp only [promoteAll?, Option.bind_eq_bind] at h
      split at h
      · cases h
      · obtain ⟨a', ha, h⟩ := Option.bind_eq_some_iff.mp h
        obtain ⟨as', has, h⟩ := Option.bind_eq_some_iff.mp h
        cases h
        exact .cons ⟨p.ty, (Operand.promote?_fits ha).1⟩ (promoteAll?_places has)
  | [], _ :: _, _, h | _ :: _, [], _, h => by cases h

theorem resolve_promotes {α : Type} {place place' : α} {methods args m passed}
    (h : resolve place methods args = .found place' m passed) :
    promoteAll? m.params args = some passed := by
  have promotes : ∀ c ∈ methods.filterMap (candidate? args),
      promoteAll? c.method.params args = some c.args := by
    intro c hc
    obtain ⟨n, -, hc⟩ := List.mem_filterMap.mp hc
    obtain ⟨passed, hp, rfl⟩ := Option.map_eq_some_iff.mp hc
    exact hp
  simp only [resolve] at h
  split at h
  · cases h
  · rename_i c only
    cases h
    exact promotes c (by simp [only])
  · split at h
    · rename_i c only
      cases h
      exact promotes c (mem_of_mem_best (by rw [only]; simp))
    · cases h

theorem resolveLayers_promotes {α : Type} {methodsOf : α → List Method}
    {args layers place m passed}
    (h : resolveLayers methodsOf args layers = .found place m passed) :
    promoteAll? m.params args = some passed := by
  induction layers with
  | nil => cases h
  | cons layer rest ih =>
      simp only [resolveLayers] at h
      split at h
      · exact ih h
      · exact resolve_promotes h

end Overload
end TypedExpr
