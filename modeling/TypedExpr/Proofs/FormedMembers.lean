import TypedExpr.Proofs.Formed

/-! # What follows an operand

Members, calls, conversions and operations of good operands are good. Each is read off the function
that makes it: what that function has matched the operand with is what the node has to say.
-/

namespace TypedExpr

open Source Expr AggregateOp

variable {T : Ty → Prop} {P : List Parameter → Expr → Prop} {Γ : List Parameter}

namespace Operand

theorem property_good {source : Operand} {name pos o} (c : Closed T P) (hs : source.Good P Γ)
    (h : property source.ty (some source) name pos = .ok o) : o.Good P Γ := by
  simp only [property] at h
  split at h
  · rename_i m hm
    cases h
    exact ⟨c.formed (.member hm) trivial (c.family.member (hs.ty c) hm), hs⟩
  · cases h

theorem staticProperty_good {t : Ty} {name pos o} (c : Closed T P) (ht : NamedTy t)
    (h : property t none name pos = .ok o) : o.Good P Γ := by
  simp only [property] at h
  split at h
  · rename_i m hm
    cases h
    exact ⟨c.formed (.staticMember ht hm) trivial (c.family.member (c.family.named ht) hm), trivial⟩
  · cases h

theorem mem_methods {t : Ty} {name isStatic layer m} (hl : layer ∈ Catalog.methods t name isStatic)
    (hm : m ∈ layer.methods) :
    layer.owner ∈ Catalog.selfAndBases t ∧ m ∈ Catalog.declaredMethods layer.owner ∧
      m.isStatic = isStatic := by
  simp only [Catalog.methods, Catalog.layers, List.mem_filter, List.mem_map] at hl
  obtain ⟨⟨owner, howner, rfl⟩, -⟩ := hl
  simp only [List.mem_filter, Bool.and_eq_true, beq_iff_eq] at hm
  exact ⟨howner, hm.1, hm.2.1⟩

theorem mem_indexers {t : Ty} {layer m} (hl : layer ∈ Catalog.indexers t)
    (hm : m ∈ layer.methods) :
    layer.owner ∈ Catalog.selfAndBases t ∧ m ∈ Catalog.declaredIndexers layer.owner := by
  simp only [Catalog.indexers, Catalog.layers, List.mem_filter, List.mem_map] at hl
  obtain ⟨⟨owner, howner, rfl⟩, -⟩ := hl
  exact ⟨howner, hm⟩

theorem method_ok {t : Ty} {target : Option Operand} {name args pos o}
    (h : method t target name args pos = .ok o) :
    ∃ layer m passed, layer ∈ Catalog.methods t name target.isNone ∧ m ∈ layer.methods ∧
      Overload.Passed args m.params passed ∧ Catalog.isPredefined layer.owner ∧
      m.result.isSome ∧
      o = plain (.call (target.map (·.expr)) layer.owner m (passed.map (·.expr))) := by
  simp only [method] at h
  split at h
  · cases h
  · cases h
  · rename_i layer m passed found
    obtain ⟨hl, hm, hp⟩ := Overload.resolveLayers_found found
    split at h
    · cases h
    · rename_i predefined
      split at h
      · cases h
      · rename_i result
        cases h
        exact ⟨layer, m, passed, hl, hm, hp, by simpa using predefined,
          by simpa [← Option.isSome_iff_ne_none] using result, rfl⟩

theorem method_good {source : Operand} {name args pos o} (c : Closed T P) (hs : source.Good P Γ)
    (hargs : ∀ a ∈ args, a.Good P Γ)
    (h : method source.ty (some source) name args pos = .ok o) : o.Good P Γ := by
  obtain ⟨layer, m, passed, hl, hm, hp, predefined, result, rfl⟩ := method_ok h
  obtain ⟨howner, hm, hi⟩ := mem_methods hl hm
  obtain ⟨hparams, hty⟩ := c.family.method (Catalog.methods_named predefined hm)
  have formed : Expr.Formed (.call (some source.expr) layer.owner m (passed.map (·.expr))) :=
    .call howner predefined hm hi result hp.fit
  exact ⟨c.formed formed trivial hty, hs, hp.inAll c hargs hparams⟩

theorem staticMethod_good {t : Ty} {name args pos o} (c : Closed T P)
    (hargs : ∀ a ∈ args, a.Good P Γ) (h : method t none name args pos = .ok o) :
    o.Good P Γ := by
  obtain ⟨layer, m, passed, hl, hm, hp, predefined, result, rfl⟩ := method_ok h
  obtain ⟨-, hm, hi⟩ := mem_methods hl hm
  obtain ⟨hparams, hty⟩ := c.family.method (Catalog.methods_named predefined hm)
  have formed : Expr.Formed (.call none layer.owner m (passed.map (·.expr))) :=
    .staticCall predefined hm hi result hp.fit
  exact ⟨c.formed formed trivial hty, trivial, hp.inAll c hargs hparams⟩

theorem index_good {target : Operand} {args pos o} (c : Closed T P) (ht : target.Good P Γ)
    (hargs : ∀ a ∈ args, a.Good P Γ) (h : target.index args pos = .ok o) : o.Good P Γ := by
  simp only [index] at h
  split at h
  · rename_i element array
    split at h
    · split at h
      · rename_i i' hi
        cases h
        obtain ⟨promoted, hty⟩ := promote?_exact hi
        have known : T element := c.family.element (ht.ty c) (by rw [array]; rfl)
        exact ⟨c.formed (.arrayIndex array hty) trivial known, ht,
          promoted.good c (hargs _ (by simp)) (c.family.predefined _)⟩
      · cases h
    · cases h
  · split at h
    · cases h
    · cases h
    · rename_i layer m passed found
      cases h
      obtain ⟨hl, hm, hp⟩ := Overload.resolveLayers_found found
      obtain ⟨howner, hm⟩ := mem_indexers hl hm
      obtain ⟨hparams, hty⟩ := c.family.indexer (ht.ty c) howner hm
      exact ⟨c.formed (.indexer howner hm hp.fit) trivial hty, ht, hp.inAll c hargs hparams⟩

theorem convert_good {a o : Operand} {t pos} (c : Closed T P) (ht : NamedTy t) (ha : a.Good P Γ)
    (h : a.convert t pos = .ok o) : o.Good P Γ := by
  have known : T t := c.family.named ht
  simp only [convert] at h
  split at h
  · cases h
    exact ha
  · split at h
    · rename_i near
      cases h
      simp only [Bool.and_eq_true] at near
      exact ⟨c.formed (.explicit ht (.null near.2)) trivial known, ha⟩
    · split at h
      · rename_i numbers
        cases h
        simp only [Bool.and_eq_true] at numbers
        have castable : a.ty.Castable t true := .number numbers.1.1.1 numbers.1.1.2
          (by rw [Bool.and_eq_true]; exact ⟨numbers.1.2, numbers.2⟩)
        exact ⟨c.formed (.explicit ht castable) trivial known, ha⟩
      · split at h
        · rename_i above
          cases h
          exact ⟨c.formed (.explicit ht (.reference above)) trivial known, ha⟩
        · cases h

theorem construct_good {t args pos o} (c : Closed T P) (ht : NamedTy t)
    (hargs : ∀ a ∈ args, a.Good P Γ) (h : construct t args pos = .ok o) : o.Good P Γ := by
  simp only [construct] at h
  split at h
  · rename_i m passed found
    cases h
    obtain ⟨-, hm, hp⟩ := Overload.resolve_found found
    obtain ⟨hparams, hty⟩ := c.family.method (Catalog.constructors_named ht hm)
    exact ⟨c.formed (.new ht hm hp.fit) trivial hty, hp.inAll c hargs hparams⟩
  · cases h
  · split at h
    · exact convert_good c ht (hargs _ (by simp)) h
    · cases h

theorem invoke_good {l args pos o} (c : Closed T P) (hl : InLambda P Γ l) (ht : T l.ty)
    (hargs : ∀ a ∈ args, a.Good P Γ) (h : invoke l args pos = .ok o) : o.Good P Γ := by
  obtain ⟨hparams, hresult⟩ := c.family.lambda (l.ty_eq ▸ ht)
  simp only [invoke] at h
  split at h
  · rename_i m passed found
    cases h
    obtain ⟨-, hm, hp⟩ := Overload.resolve_found found
    cases List.mem_singleton.mp hm
    refine ⟨c.formed (.invoke ?_) trivial hresult, hl, hp.inAll c hargs ?_⟩
    · simpa only [Fit, Method.signature, List.map_map, List.forall₂_map_right_iff,
        Function.comp_def] using hp.fit
    · simpa [Method.signature] using hparams
  · cases h

theorem aggregate_good {source : Operand} {item : Parameter} {name args pos o} (c : Closed T P)
    (hs : source.Good P Γ) (hi : itemTy? source.ty = some item.ty) (hitem : T item.ty)
    (hargs : ∀ a ∈ args, a.Good P (item :: Γ))
    (h : source.aggregate item name args pos = .ok o) : o.Good P Γ := by
  simp only [aggregate] at h
  split at h
  · cases h
  · rename_i op _
    split at h
    · rename_i m passed found
      cases h
      obtain ⟨-, hm, hp⟩ := Overload.resolve_found found
      obtain ⟨types, htypes, rfl⟩ := List.mem_map.mp hm
      have fits := hp.fits
      simp only [Method.signature, List.forall₂_map_right_iff] at fits
      have good := hp.good c hargs
        (by simpa [Method.signature] using fun t ht => c.family.named (operands_named htypes ht))
      -- an operation has one operand or none
      have short : types = [] ∨ ∃ t, types = [t] := by
        cases op <;> simp [AggregateOp.operands, OperatorClass.withNull] at htypes <;> grind
      rcases short with rfl | ⟨t, rfl⟩
      · cases fits
        exact ⟨c.formed (.bare hi htypes) trivial (c.family.bare htypes), hs, trivial⟩
      · cases fits with
        | cons fit rest =>
            cases rest
            have body := good _ List.mem_cons_self
            exact ⟨c.formed (.aggregate hi htypes fit) trivial
              (c.family.aggregate hitem htypes (body.ty c) fit), hs, body⟩
    · cases h

end Operand
end TypedExpr
