import TypedExpr.Proofs.FormedMembers

/-! # Operands between operators

Operators bring their operands to the types of a signature, or to one type. Comparisons do so in
several ways, and remember in which. Literals come last, as they have no parts.
-/

namespace TypedExpr

open Source Expr AggregateOp

variable {T : Ty → Prop} {P : List Parameter → Expr → Prop} {Γ : List Parameter}

namespace Operand

theorem unary_good {t : Token} {op} {a o : Operand} (c : Closed T P) (ha : a.Good P Γ)
    (h : unary t op a = .ok o) : o.Good P Γ := by
  simp only [unary] at h
  split at h
  · rename_i layer m a' found
    cases h
    obtain ⟨hl, hm, hp⟩ := Overload.resolveLayers_found found
    have good : a'.Good P Γ := hp.good c (by simpa using ha)
      (c.family.method (OperatorClass.layers_named _ hl hm)).1 a' (by simp)
    exact ⟨c.formed (.unary (hp.accepted hl hm)) trivial (good.ty c), good⟩
  · cases h

theorem conditional_good {test whenTrue whenFalse o : Operand} {pos} (c : Closed T P)
    (htest : test.Good P Γ) (htrue : whenTrue.Good P Γ) (hfalse : whenFalse.Good P Γ)
    (h : conditional test whenTrue whenFalse pos = .ok o) : o.Good P Γ := by
  have toBranch {a b a' : Operand} (h : a.toBranch? b = some a') :
      Promoted a b.ty a' ∧ a'.ty = b.ty := by
    simp only [toBranch?] at h
    split at h
    · cases h
    · exact promote?_exact h
  simp only [conditional] at h
  split at h
  · cases h
  · rename_i boolean
    replace boolean : test.ty = .boolean := not_not.mp boolean
    split at h
    · rename_i same
      cases h
      exact ⟨c.formed (.conditional boolean same) trivial (htrue.ty c), htest, htrue, hfalse⟩
    · split at h
      · rename_i t ht _
        cases h
        obtain ⟨promoted, same⟩ := toBranch ht
        have good := promoted.good c htrue (hfalse.ty c)
        exact ⟨c.formed (.conditional boolean same) trivial (good.ty c), htest, good, hfalse⟩
      · rename_i f _ hf
        cases h
        obtain ⟨promoted, same⟩ := toBranch hf
        exact ⟨c.formed (.conditional boolean same.symm) trivial (htrue.ty c), htest, htrue,
          promoted.good c hfalse (htrue.ty c)⟩
      · cases h
      · cases h

/-- Two operands for an operator: related as its operands must be, and good. -/
structure Related (P : List Parameter → Expr → Prop) (Γ : List Parameter) (op : BinaryOp)
    (l r : Operand) : Prop where
  same : l.ty = r.ty
  related : Expr.Related op l.expr r.expr
  left : l.Good P Γ
  right : r.Good P Γ

theorem promoteBoth_ok {oc : OperatorClass} {t : Token} {l r l' r' : Operand} (c : Closed T P)
    (hl : l.Good P Γ) (hr : r.Good P Γ) (h : promoteBoth oc t l r = .ok (l', r')) :
    oc.Accepts [l'.ty, r'.ty] ∧ l'.Good P Γ ∧ r'.Good P Γ := by
  simp only [promoteBoth] at h
  split at h
  · rename_i layer m l'' r'' found
    cases h
    obtain ⟨hlayer, hm, hp⟩ := Overload.resolveLayers_found found
    have good := hp.good c (Γ := Γ) (by simp [hl, hr])
      (c.family.method (oc.layers_named hlayer hm)).1
    exact ⟨hp.accepted hlayer hm, good _ (by simp), good _ (by simp)⟩
  · cases h

/-- Both operands of a comparison by a signature have one type. -/
theorem same_of_accepts {op : BinaryOp} {a b : Ty} (hop : op.isComparison)
    (h : (OperatorClass.ofBinary op).Accepts [a, b]) : a = b := by
  have uniform := h.check (OperatorClass.onTwo fun s t => s = t)
    (by cases op <;> first | rfl | cases hop)
  simpa [OperatorClass.onTwo] using uniform

/-- A reference converts to what is above it. -/
theorem convertsTo_of_above {s t : Ty} (ht : t.isValueType = false) (h : t.isAssignableFrom s) :
    s.convertsTo t := by
  simp [Ty.convertsTo, ht, h]

/-- The right operand of two, in the type of the left one. -/
private theorem related_right {op} {l r r' : Operand} (henum : l.ty.isEnum ∨ r.ty.isEnum)
    (hne : l.ty ≠ r.ty) (h : Promoted r l.ty r') (same : r'.ty = l.ty) :
    Expr.Related op l.expr r'.expr := by
  cases h with
  | same => exact absurd same.symm hne
  | literal _ _ he =>
      rcases he with rfl | he
      · exact .rightNull
      · exact .enums (henum.resolve_right (by simp [he]))
  | converted converts =>
      rcases henum with henum | henum
      · exact .enums henum
      · exact .rightEnum henum converts

/-- The left operand of two, in the type of the right one. -/
private theorem related_left {op} {l r l' : Operand} (henum : l.ty.isEnum ∨ r.ty.isEnum)
    (hne : l.ty ≠ r.ty) (h : Promoted l r.ty l') (same : l'.ty = r.ty) :
    Expr.Related op l'.expr r.expr := by
  cases h with
  | same => exact absurd same hne
  | literal _ _ he =>
      rcases he with rfl | he
      · exact .leftNull
      · exact .enums (same ▸ henum.resolve_left (by simp [he]))
  | converted converts =>
      rcases henum with henum | henum
      · exact .leftEnum henum converts
      · exact .enums henum

theorem relateEnums_ok {t : Token} {op} {l r l' r' : Operand} (c : Closed T P)
    (henum : l.ty.isEnum ∨ r.ty.isEnum) (hl : l.Good P Γ) (hr : r.Good P Γ)
    (h : relateEnums t l r = .ok (l', r')) : Related P Γ op l' r' := by
  simp only [relateEnums] at h
  split at h
  · rename_i same
    cases h
    have left : l.ty.isEnum := henum.elim id fun right => by rwa [same]
    exact ⟨same, .enums left, hl, hr⟩
  · rename_i hne
    split at h
    · rename_i hr'
      cases h
      obtain ⟨promoted, same⟩ := promote?_exact hr'
      exact ⟨same.symm, related_right henum hne promoted same, hl,
        promoted.good c hr (hl.ty c)⟩
    · rename_i hl'
      cases h
      obtain ⟨promoted, same⟩ := promote?_exact hl'
      exact ⟨same, related_left henum hne promoted same,
        promoted.good c hl (hr.ty c), hr⟩
    · cases h

theorem relate_ok {t : Token} {op} {l r l' r' : Operand} (c : Closed T P) (hop : op.isComparison)
    (hl : l.Good P Γ) (hr : r.Good P Γ) (h : relate t op l r = .ok (l', r')) :
    Related P Γ op l' r' := by
  simp only [relate] at h
  split at h
  · rename_i references
    simp only [Bool.and_eq_true, Bool.not_eq_true'] at references
    obtain ⟨⟨equality, left⟩, right⟩ := references
    simp only [relateReferences] at h
    split at h
    · rename_i same
      cases h
      exact ⟨same, .equality equality, hl, hr⟩
    · split at h
      · rename_i above
        cases h
        exact ⟨rfl, .equality equality, hl,
          c.formed (.implicit (convertsTo_of_above left above)) trivial (hl.ty c), hr⟩
      · split at h
        · rename_i above
          cases h
          exact ⟨rfl, .equality equality,
            ⟨c.formed (.implicit (convertsTo_of_above right above)) trivial (hr.ty c), hl⟩, hr⟩
        · cases h
  · split at h
    · rename_i enums
      exact relateEnums_ok c (by simpa using enums) hl hr h
    · obtain ⟨accepted, hl, hr⟩ := promoteBoth_ok c hl hr h
      exact ⟨same_of_accepts hop accepted, .signature accepted, hl, hr⟩

/-- A static call of a method of strings, of which the arguments fit. -/
private theorem stringCall_formed {m : Method} {args : List Expr} (hm : m ∈ Catalog.stringMethods)
    (hi : m.isStatic) (hr : m.result.isSome) (hargs : Fit args m) :
    Expr.Formed (.call none .string m args) :=
  .staticCall rfl hm hi hr hargs

private theorem order_formed {l r : Expr} (hl : l.ty = .string) (hr : r.ty = .string) :
    Expr.Formed (.call none .string compareMethod [l, r]) :=
  stringCall_formed (by simp [Catalog.stringMethods, compareMethod, Catalog.onType]) rfl rfl
    (.cons (.inl hl) (.cons (.inl hr) .nil))

/-- Two numbers of 32 bits can be compared by every relation. -/
private theorem accepts_int32 {op : BinaryOp} (hop : op.isComparison)
    (hne : isEquality op = false) : (OperatorClass.ofBinary op).Accepts [.int32, .int32] := by
  refine ⟨OperatorClass.arithmeticSignatures, ?_, Method.signature "F" [.int32, .int32], ?_, rfl⟩
  · cases op <;> first
      | exact absurd hop (by decide)
      | simp [OperatorClass.ofBinary, OperatorClass.layers]
  · simp [OperatorClass.arithmeticSignatures, OperatorClass.uniform, OperatorClass.withNull]

theorem compared_good {t : Token} {op} {l r o : Operand} (c : Closed T P) (hop : op.isComparison)
    (hl : l.Good P Γ) (hr : r.Good P Γ) (h : compared t op l r = .ok o) : o.Good P Γ := by
  simp only [compared] at h
  cases hrelated : relate t op l r with
  | error e => rw [hrelated] at h; cases h
  | ok both =>
      obtain ⟨l', r'⟩ := both
      rw [hrelated] at h
      obtain ⟨same, related, left, right⟩ := relate_ok c hop hl hr hrelated
      change (if _ then _ else _) = _ at h
      split at h
      · rename_i texts
        simp only [Bool.and_eq_true, Bool.not_eq_true', decide_eq_true_eq] at texts
        cases h
        obtain ⟨relation, string⟩ := texts
        have order := order_formed (l := l'.expr) (r := r'.expr) string (same.symm.trans string)
        have known (p : Predefined) : T (.predefined p) := c.family.predefined p
        refine ⟨c.formed (.comparison hop rfl (.signature ?_)) trivial (known _), ?_,
          c.written rfl rfl (known _)⟩
        · exact accepts_int32 hop relation
        · exact ⟨c.formed order trivial (known _), trivial, left, right, trivial⟩
      · cases h
        exact ⟨c.formed (.comparison hop same related) trivial (c.family.predefined _), left, right⟩

private theorem boxed_good {o : Operand} (c : Closed T P) (h : o.Good P Γ) :
    o.boxed.Everywhere P Γ ∧ o.boxed.ty.Fits .object := by
  have converts : o.ty.convertsTo .object := convertsTo_of_above rfl rfl
  unfold boxed
  split
  · exact ⟨⟨c.formed (.implicit converts) trivial (c.family.predefined _), h⟩, .inl rfl⟩
  · exact ⟨h, .inr ⟨rfl, converts⟩⟩

theorem concat_good {l r : Operand} (c : Closed T P) (hl : l.Good P Γ) (hr : r.Good P Γ) :
    (concat l r).Good P Γ := by
  obtain ⟨left, leftFits⟩ := boxed_good c hl
  obtain ⟨right, rightFits⟩ := boxed_good c hr
  have joined : Expr.Formed (.call none .string concatMethod [l.boxed, r.boxed]) :=
    stringCall_formed (by simp [Catalog.stringMethods, concatMethod, Catalog.onType]) rfl rfl
      (.cons leftFits (.cons rightFits .nil))
  exact ⟨c.formed joined trivial (c.family.predefined _), trivial, left, right, trivial⟩

theorem binary_good {t : Token} {l r o : Operand} (c : Closed T P) (hl : l.Good P Γ)
    (hr : r.Good P Γ) (h : binary t l r = .ok o) : o.Good P Γ := by
  simp only [binary] at h
  split at h
  · cases h
    exact concat_good c hl hr
  · split at h
    · cases h
    · rename_i op _
      split at h
      · rename_i hop
        exact compared_good c hop hl hr h
      · rename_i hop
        cases hpromoted : promoteBoth (OperatorClass.ofBinary op) t l r with
        | error e => rw [hpromoted] at h; cases h
        | ok both =>
            obtain ⟨l', r'⟩ := both
            rw [hpromoted] at h
            cases h
            obtain ⟨accepted, left, right⟩ := promoteBoth_ok c hl hr hpromoted
            exact ⟨c.formed (.arithmetic (by simpa using hop) accepted) trivial
              (c.family.arithmetic (left.ty c)), left, right⟩

private theorem literal_good {v : Value} {text} (c : Closed T P) (h : v.isWritten)
    (ht : NamedTy v.typeOf) : (literal v text).Good P Γ :=
  c.written h v.conformsTo_typeOf (c.family.named ht)

theorem ofInteger_good {t o} (c : Closed T P) (h : ofInteger t = .ok o) : o.Good P Γ := by
  simp only [ofInteger] at h
  split at h
  · rename_i v hv
    cases h
    have firstFit {n kinds} (hn : integerValue?.firstFit n kinds = some v) :
        (literal v t.text).Good P Γ := by
      obtain ⟨k, -, hk⟩ := List.exists_of_findSome?_eq_some hn
      obtain ⟨w, -, rfl⟩ := Option.map_eq_some_iff.mp hk
      exact literal_good c rfl (.predefined _)
    simp only [integerValue?] at hv
    split at hv
    · obtain ⟨n, -, hn⟩ := Option.bind_eq_some_iff.mp hv
      exact firstFit hn
    · obtain ⟨n, -, hn⟩ := Option.bind_eq_some_iff.mp hv
      exact firstFit hn
  · cases h

theorem ofReal_good {t o} (c : Closed T P) (h : ofReal t = .ok o) : o.Good P Γ := by
  simp only [ofReal] at h
  split at h
  · rename_i v hv
    cases h
    simp only [realValue?] at hv
    split at hv
    · split at hv
      all_goals
        obtain ⟨x, -, rfl⟩ := Option.map_eq_some_iff.mp hv
        exact literal_good c rfl (.predefined _)
    · cases hv
  · cases h

theorem ofQuoted_good {t o} (c : Closed T P) (h : ofQuoted t = .ok o) : o.Good P Γ := by
  simp only [ofQuoted] at h
  split at h
  · split at h
    · cases h
      exact literal_good c rfl (.predefined _)
    · cases h
  · cases h
    exact literal_good c rfl (.predefined _)

end Operand
end TypedExpr
