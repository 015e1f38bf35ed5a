import TypedExpr.Proofs.PlainTypes

/-! # Values that conform all the way down

A value is stored where it conforms to a type as far as it shows by itself; what a sequence holds
does not show. Here the items of a sequence and the fields of a record conform as well.

The language lets a text stand for a sequence of characters among the items of a sequence, but not
by itself. Whether a text may stand for one is a parameter of the relation, so that it says both
what is true of all expressions and what is true where no such text is passed on.
-/

namespace TypedExpr

/-- The value and all its parts conform to the type. Where `texts` holds, a text also conforms as
    the sequence of its characters. -/
inductive Value.Conforms (texts : Prop) : Value → Ty → Prop where
  | object {v} : Conforms texts v .object
  | null {t} (h : t.isValueType = false ∨ t.isNullable) : Conforms texts .null t
  | nullable {v t} (h : Conforms texts v t) : Conforms texts v (.nullable t)
  | scalar {v t} (hs : v.isScalar) (hn : v.isNull = false) (ht : v.typeOf = t) :
      Conforms texts v t
  | record {r : RecordType} {fields : List Value} (hlen : fields.length = r.properties.length)
      (h : ∀ (i : Nat) v (p : Property), fields[i]? = some v → r.properties[i]? = some p →
        Conforms texts v p.ty) : Conforms texts (.record r fields) (.record r)
  | sequence {items e} (h : ∀ v ∈ items, Conforms texts v e) :
      Conforms texts (.sequence items) (.sequence e)
  | array {items e} (h : ∀ v ∈ items, Conforms texts v e) :
      Conforms texts (.sequence items) (.array e)
  | hosted {id c members items e} (h : ∀ v ∈ items, Conforms texts v e) :
      Conforms texts (.hosted id c members (some items)) (.sequence e)
  | text {s} (h : texts) : Conforms texts (.string s) (.sequence .char)

/-- Texts among the items of a collection would have to stand for sequences of characters, were the
    collection passed on where another type of collection is asked for. -/
def Ty.nestsText : (target source : Ty) → Bool
  | .sequence e, source =>
    match source.elementType? with
    | some e' => e' ≠ e && (e' = .string && e = .sequence .char || e.nestsText e')
    | none => false
  | _, _ => false

namespace Value.Conforms

variable {texts : Prop} {v : Value}

theorem imp {texts' : Prop} {t : Ty} (h : v.Conforms texts t) (ht : texts → texts') :
    v.Conforms texts' t := by
  induction h with
  | object => exact .object
  | null h => exact .null h
  | nullable _ ih => exact .nullable ih
  | scalar hs hn hty => exact .scalar hs hn hty
  | record hlen _ ih => exact .record hlen ih
  | sequence _ ih => exact .sequence ih
  | array _ ih => exact .array ih
  | hosted _ ih => exact .hosted ih
  | text h => exact .text (ht h)

/-! ## What conforms to a type -/

theorem null_or_nonNullable {t : Ty} (h : v.Conforms texts t) :
    v = .null ∧ (t.isValueType = false ∨ t.isNullable) ∨ v.Conforms texts t.nonNullable := by
  cases h with
  | null h => exact .inl ⟨rfl, h⟩
  | nullable h => exact .inr h
  | object => exact .inr .object
  | scalar hs hn ht =>
      refine .inr (.scalar hs hn ?_)
      subst ht
      cases v <;> rfl
  | record hlen h => exact .inr (.record hlen h)
  | sequence h => exact .inr (.sequence h)
  | array h => exact .inr (.array h)
  | hosted h => exact .inr (.hosted h)
  | text h => exact .inr (.text h)

theorem typeOf {p : Predefined} (h : v.Conforms texts (.predefined p))
    (hp : (Ty.predefined p).isValueType) : v.typeOf = .predefined p := by
  cases h with
  | object => cases hp
  | null h => simp [hp, Ty.isNullable] at h
  | scalar _ _ ht => exact ht

theorem boolean (h : v.Conforms texts .boolean) : ∃ b, v = .boolean b := by
  have ht := h.typeOf rfl
  cases v <;> first | exact ⟨_, rfl⟩ | cases ht

theorem char (h : v.Conforms texts .char) : ∃ c, v = .char c := by
  have ht := h.typeOf rfl
  cases v <;> first | exact ⟨_, rfl⟩ | cases ht

theorem integer {k : IntKind} (h : v.Conforms texts (.integer k)) : ∃ w, v = .integer k w := by
  have ht := h.typeOf rfl
  cases v <;> cases ht
  exact ⟨_, rfl⟩

theorem single (h : v.Conforms texts .single) : ∃ x, v = .single x := by
  have ht := h.typeOf rfl
  cases v <;> first | exact ⟨_, rfl⟩ | cases ht

theorem double (h : v.Conforms texts .double) : ∃ x, v = .double x := by
  have ht := h.typeOf rfl
  cases v <;> first | exact ⟨_, rfl⟩ | cases ht

theorem decimal (h : v.Conforms texts .decimal) : ∃ d, v = .decimal d := by
  have ht := h.typeOf rfl
  cases v <;> first | exact ⟨_, rfl⟩ | cases ht

theorem dateTime (h : v.Conforms texts .dateTime) : ∃ t, v = .dateTime t := by
  have ht := h.typeOf rfl
  cases v <;> first | exact ⟨_, rfl⟩ | cases ht

theorem timeSpan (h : v.Conforms texts .timeSpan) : ∃ s, v = .timeSpan s := by
  have ht := h.typeOf rfl
  cases v <;> first | exact ⟨_, rfl⟩ | cases ht

theorem string (h : v.Conforms texts .string) : v = .null ∨ ∃ s, v = .string s := by
  cases h with
  | null => exact .inl rfl
  | scalar _ _ ht => cases v <;> first | exact .inr ⟨_, rfl⟩ | cases ht

theorem enum {e : EnumType} (h : v.Conforms texts (.enum e)) : ∃ n, v = .enum e n := by
  cases h with
  | null h => simp [Ty.isValueType, Ty.isNullable] at h
  | scalar _ _ ht =>
      cases v <;> cases ht
      exact ⟨_, rfl⟩

/-- The items of what conforms to a collection conform to its elements. Only a text that stands for
    its characters has none. -/
theorem items {t e : Ty} (h : v.Conforms texts t) (he : t.elementType? = some e) :
    v = .null ∨ (∃ items, v.items? = some items ∧ ∀ u ∈ items, u.Conforms texts e) ∨
      texts ∧ ∃ s, v = .string s := by
  cases h with
  | null => exact .inl rfl
  | sequence h | array h | hosted h =>
      cases he
      exact .inr (.inl ⟨_, rfl, h⟩)
  | text h => exact .inr (.inr ⟨h, _, rfl⟩)
  | object | nullable | record => cases he
  | scalar hs _ hty =>
      subst hty
      cases v with
      | record | sequence | hosted => cases hs
      | _ => cases he

/-- A record has a value for each property. -/
theorem fields {r : RecordType} (h : v.Conforms texts (.record r)) :
    v = .null ∨ ∃ fields, v = .record r fields ∧ fields.length = r.properties.length ∧
      ∀ (i : Nat) u (p : Property), fields[i]? = some u → r.properties[i]? = some p →
        u.Conforms texts p.ty := by
  cases h with
  | null => exact .inl rfl
  | record hlen h => exact .inr ⟨_, rfl, hlen, h⟩
  | scalar hs _ ht =>
      cases v with
      | record | sequence | hosted => cases hs
      | _ => cases ht

/-! ## Conforming as it shows -/

theorem of_predefined {p : Predefined} (h : v.conformsTo (.predefined p)) :
    v.Conforms texts (.predefined p) := by
  by_cases hp : p = .object
  · subst hp
    exact .object
  · cases v with
    | null =>
        refine .null (.inl ?_)
        cases p <;> first | rfl | exact absurd rfl hp | cases h
    | record | sequence | hosted => cases p <;> first | exact absurd rfl hp | cases h
    | _ =>
        refine .scalar rfl rfl ?_
        cases p <;> first | exact absurd rfl hp | exact of_decide_eq_true h

/-- A scalar shows all that there is to its conforming. -/
theorem of_scalar : ∀ {t : Ty}, v.isScalar → v.conformsTo t → v.Conforms texts t
  | .predefined _, _, h => of_predefined h
  | .nullable inner, hs, h => by
      simp only [conformsTo, Bool.or_eq_true] at h
      rcases h with hn | h
      · cases v <;> first | exact .null (.inr rfl) | cases hn
      · exact .nullable (of_scalar hs h)
  | .enum e, hs, h => by
      cases v with
      | enum e' n =>
          cases of_decide_eq_true h
          exact .scalar rfl rfl rfl
      | _ => cases h
  | .record _, hs, h | .cls _, hs, h | .sequence _, hs, h | .array _, hs, h
  | .lambda .., hs, h => by
      cases v <;> first | exact .null (.inl rfl) | (cases h; done) | cases hs

/-- What conforms all the way down conforms as it shows, but for a text that stands for its
    characters. -/
theorem conformsTo {t : Ty} (h : v.Conforms texts t) (ht : t.Plain) :
    v.conformsTo t ∨ texts ∧ (∃ s, v = .string s) ∧ t = .sequence .char := by
  induction h with
  | object => exact .inl rfl
  | null h => exact .inl (null_conformsTo h)
  | nullable _ ih =>
      cases ht with
      | nullable plain value _ =>
          rcases ih plain with shown | ⟨-, -, rfl⟩
          · exact .inl (conformsTo_of_nonNullable shown)
          · cases value
  | scalar _ _ hty =>
      subst hty
      exact .inl (conformsTo_typeOf _)
  | record => exact .inl (by simp [Value.conformsTo])
  | sequence | array | hosted => exact .inl rfl
  | text h => exact .inr ⟨h, ⟨_, rfl⟩, rfl⟩

/-! ## Passing a value on -/

/-- The items of what conforms to a collection, gone through as a collection of other elements. -/
private theorem sequence_of_items {s e e' : Ty} {v : Value} (h : v.Conforms texts s)
    (he : s.elementType? = some e')
    (hitems : ∀ u : Value, u.Conforms texts e' → u.Conforms texts e) :
    v.Conforms texts (.sequence e) ∨ e' = .char ∧ v.Conforms texts (.sequence .char) := by
  cases h with
  | null => exact .inl (.null (.inl rfl))
  | sequence h | array h =>
      cases he
      exact .inl (.sequence fun u hu => hitems u (h u hu))
  | hosted h =>
      cases he
      exact .inl (.hosted fun u hu => hitems u (h u hu))
  | text h =>
      cases he
      exact .inr ⟨rfl, .text h⟩
  | object | nullable | record => cases he
  | scalar hs _ hty =>
      subst hty
      cases v with
      | record | sequence | hosted => cases hs
      | _ => cases he

/-- What conforms to a type conforms to every type above it, unless a text on the way would have to
    stand for its characters. -/
theorem above : ∀ {t s : Ty} {v : Value}, t.Plain → t.isAssignableFrom s → v.Conforms texts s →
    (texts ∨ t.nestsText s = false ∧ ¬ (s = .string ∧ t = .sequence .char)) →
    v.Conforms texts t
  | .sequence e, s, v, ht, h, hv, allowed => by
      by_cases same : Ty.sequence e = s
      · exact same ▸ hv
      cases he : s.elementType? with
      | none =>
          -- only a text is below a sequence without being a collection
          have spelled : s = .string ∧ e = .char := by
            unfold Ty.isAssignableFrom at h
            simp only [same, decide_false, Bool.false_or] at h
            split at h
            · exact ⟨rfl, of_decide_eq_true h⟩
            · simp [he] at h
          obtain ⟨rfl, rfl⟩ := spelled
          have texts := allowed.resolve_right (by simp)
          rcases hv.string with rfl | ⟨str, rfl⟩
          · exact .null (.inl rfl)
          · exact .text texts
      | some e' =>
          have below : e' = e ∨ e'.isValueType = false ∧ e.isAssignableFrom e' := by
            unfold Ty.isAssignableFrom at h
            simp only [same, decide_false, Bool.false_or] at h
            split at h
            · cases he
            · simpa [he] using h
          cases ht with
          | sequence plain =>
              have hitems : ∀ u : Value, u.Conforms texts e' → u.Conforms texts e := by
                intro u hu
                by_cases equal : e' = e
                · exact equal ▸ hu
                refine above plain (below.resolve_left equal).2 hu (allowed.imp_right ?_)
                intro quiet
                simpa [Ty.nestsText, he, equal, and_comm] using quiet.1
              rcases sequence_of_items hv he hitems with done | ⟨rfl, spelled⟩
              · exact done
              · -- characters are below nothing but themselves
                rcases below with rfl | ⟨reference, -⟩
                · exact spelled
                · cases reference
  | .predefined p, s, v, _, h, hv, _ => by
      by_cases root : p = .object
      · exact root ▸ .object
      · have same : Ty.predefined p = s := by
          cases p <;> first | exact absurd rfl root | exact of_decide_eq_true h
        exact same ▸ hv
  | .nullable _, _, _, _, h, hv, _ | .enum _, _, _, _, h, hv, _ | .record _, _, _, _, h, hv, _
  | .array _, _, _, _, h, hv, _ | .lambda .., _, _, _, h, hv, _ => (of_decide_eq_true h) ▸ hv
  | .cls _, _, _, ht, _, _, _ => nomatch ht

end Value.Conforms
end TypedExpr
