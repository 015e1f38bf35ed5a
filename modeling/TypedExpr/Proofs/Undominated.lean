import TypedExpr.Proofs.OverloadChoice

/-! # Candidates that none is better than

The chosen overload is better than every other candidate, and so it is the only one that none is
better than. A candidate can be the only one of this kind and still not be better than all others,
for betterness is not transitive: at one place it holds two targets equal of which neither goes to
the other. Where it is transitive the two rules agree, and so they do for overloads that each ask
for one predefined type throughout.
-/

namespace TypedExpr

namespace Ty

variable {s t u : Ty}

/-- A better target than another one, for sources that are neither. -/
def narrows (t u : Ty) : Bool :=
  t ≠ u && if t.convertsTo u = u.convertsTo t then t.isSignedIntegral && u.isUnsignedIntegral
    else t.convertsTo u

theorem compareTargets_eq_gt_iff :
    s.compareTargets t u = .gt ↔ t ≠ u ∧ (s = t ∨ s ≠ u ∧ t.narrows u) := by
  unfold compareTargets narrows
  by_cases same : t = u
  · simp [same]
  by_cases first : s = t
  · simp [same, first]
  by_cases second : s = u
  · simp [second, Ne.symm same, same]
  simp only [same, first, second, if_false]
  cases t.convertsTo u <;> cases u.convertsTo t <;> cases t.isSignedIntegral <;>
    cases u.isUnsignedIntegral <;> simp [same, second, ite_eq_iff]

theorem compareTargets_eq_lt_iff_narrows :
    s.compareTargets t u = .lt ↔ u ≠ t ∧ (s = u ∨ s ≠ t ∧ u.narrows t) :=
  compareTargets_eq_lt_iff.trans compareTargets_eq_gt_iff

end Ty

namespace Predefined

/-- All types known by name. -/
private def known : List Predefined :=
  [.object, .boolean, .char, .string, .single, .double, .decimal, .dateTime, .timeSpan, .guid,
    .math, .convert] ++
  [IntKind.sbyte, .byte, .int16, .uint16, .int32, .uint32, .int64, .uint64].map .integer

private theorem mem_known (p : Predefined) : p ∈ known := by
  rcases p with _ | _ | _ | _ | k | _ <;> first | decide | (cases k <;> decide)

/-- Types known by name are ordered as targets. -/
theorem narrows_trans {p q r : Predefined} (hpq : (Ty.predefined p).narrows (.predefined q))
    (hqr : (Ty.predefined q).narrows (.predefined r)) :
    (Ty.predefined p).narrows (.predefined r) := by
  have known_trans : ∀ p ∈ known, ∀ q ∈ known, (Ty.predefined p).narrows (.predefined q) →
      ∀ r ∈ known, (Ty.predefined q).narrows (.predefined r) →
        (Ty.predefined p).narrows (.predefined r) := by
    decide +kernel
  exact known_trans p (mem_known p) q (mem_known q) hpq r (mem_known r) hqr

end Predefined

/-- All parameters are of one type known by name. -/
def Method.AsksOne (m : Method) : Prop := ∃ p : Predefined, ∀ q ∈ m.params, q.ty = .predefined p

namespace Overload

variable {α : Type} {place p : α} {args : List Operand} {m n k : Method}
  {cs : List Candidate} {c d : Candidate}

/-! ## The rule of the undominated candidate -/

/-- None of the candidates is better. -/
def unbeaten (args : List Operand) (cs : List Candidate) (c : Candidate) : Bool :=
  cs.all fun d => !isBetter args d.method c.method

/-- The candidates that none is better than. -/
def undominated (args : List Operand) (cs : List Candidate) : List Candidate :=
  cs.filter (unbeaten args cs)

/-- Better than a better candidate is better. -/
def Transitive (args : List Operand) (cs : List Candidate) : Prop :=
  ∀ b ∈ cs, ∀ c ∈ cs, ∀ d ∈ cs, isBetter args b.method c.method →
    isBetter args c.method d.method → isBetter args b.method d.method

theorem mem_undominated :
    c ∈ undominated args cs ↔ c ∈ cs ∧ ∀ d ∈ cs, isBetter args d.method c.method = false := by
  simp [undominated, unbeaten]

theorem Wins.undominated (h : Wins args cs c) : undominated args cs = [c] := by
  have top : unbeaten args cs c := by
    simp only [unbeaten, List.all_eq_true, Bool.not_eq_true']
    intro d hd
    by_cases same : d = c
    · rw [same, isBetter_self]
    · exact isBetter_asymm (h.beats hd same)
  have there := h.mem
  obtain ⟨rest, perm, beats⟩ := h
  have beaten : rest.filter (unbeaten args cs) = [] := by
    refine List.filter_eq_nil_iff.mpr fun d hd => ?_
    simp only [unbeaten, List.all_eq_true, Bool.not_eq_true']
    intro top
    simpa [beats d hd] using top c there
  have left := perm.filter (unbeaten args cs)
  rw [List.filter_cons_of_pos top, beaten] at left
  exact List.perm_singleton.mp left

/-- Where betterness is transitive, each candidate is undominated or some undominated one is better
than it. -/
theorem Transitive.undominated_above (trans : Transitive args cs) (hc : c ∈ cs) :
    ∃ e ∈ undominated args cs, e = c ∨ isBetter args e.method c.method := by
  -- going through candidates, keep one that none of those seen so far is better than
  have above : ∀ seen : List Candidate, seen ⊆ cs → ∃ e ∈ cs,
      (e = c ∨ isBetter args e.method c.method) ∧
        ∀ d ∈ seen, isBetter args d.method e.method = false := by
    intro seen
    induction seen with
    | nil => exact fun _ => ⟨c, hc, .inl rfl, by simp⟩
    | cons d ds ih =>
        intro known
        obtain ⟨hd, hds⟩ := List.cons_subset.mp known
        obtain ⟨e, he, higher, top⟩ := ih hds
        cases better : isBetter args d.method e.method with
        | false => exact ⟨e, he, higher, List.forall_mem_cons.mpr ⟨better, top⟩⟩
        | true =>
            refine ⟨d, hd, .inr ?_, List.forall_mem_cons.mpr ⟨isBetter_self args _, ?_⟩⟩
            · rcases higher with rfl | higher
              · exact better
              · exact trans d hd e he c hc better higher
            · intro b hb
              by_contra beaten
              have higher := trans b (hds hb) d hd e he (by simpa using beaten) better
              rw [top b hb] at higher
              cases higher
  obtain ⟨e, he, higher, top⟩ := above cs (List.Subset.refl cs)
  exact ⟨e, mem_undominated.mpr ⟨he, top⟩, higher⟩

theorem Transitive.wins_iff (trans : Transitive args cs) :
    Wins args cs c ↔ undominated args cs = [c] := by
  refine ⟨Wins.undominated, fun only => ?_⟩
  have top : c ∈ undominated args cs := by simp [only]
  obtain ⟨before, after, split⟩ := List.append_of_mem (mem_undominated.mp top).1
  have perm : cs.Perm (c :: (before ++ after)) := split ▸ List.perm_middle
  refine ⟨before ++ after, perm, fun d hd => ?_⟩
  obtain ⟨e, he, higher⟩ := trans.undominated_above (perm.mem_iff.mpr (List.mem_cons_of_mem c hd))
  obtain rfl := List.mem_singleton.mp (only ▸ he)
  refine higher.resolve_left ?_
  -- a second copy of the candidate would be undominated, too
  rintro rfl
  have unbeaten := (List.mem_filter.mp top).2
  have left := (perm.filter _).symm.trans (List.Perm.of_eq only)
  rw [List.filter_cons_of_pos unbeaten, List.perm_singleton, List.cons_eq_cons] at left
  exact List.filter_eq_nil_iff.mp left.2 e hd unbeaten

/-! ## Overloads that each ask for one type -/

section OneType

variable {t u : Ty}

theorem noWorse_iff : ∀ {args : List Operand} {ps qs : List Param},
    ps.length = args.length → qs.length = args.length → (∀ x ∈ ps, x.ty = t) →
    (∀ x ∈ qs, x.ty = u) →
    (noWorse args ps qs ↔ ∀ a ∈ args, a.ty.compareTargets t u ≠ .lt)
  | [], [], [], _, _, _, _ => by simp [noWorse]
  | a :: as, x :: xs, y :: ys, hps, hqs, ht, hu => by
      obtain ⟨first, ht⟩ := List.forall_mem_cons.mp ht
      obtain ⟨second, hu⟩ := List.forall_mem_cons.mp hu
      have rest := noWorse_iff (Nat.succ.inj hps) (Nat.succ.inj hqs) ht hu
      simp [noWorse, first, second, rest]

theorem somewhereBetter_iff : ∀ {args : List Operand} {ps qs : List Param},
    ps.length = args.length → qs.length = args.length → (∀ x ∈ ps, x.ty = t) →
    (∀ x ∈ qs, x.ty = u) →
    (somewhereBetter args ps qs ↔ ∃ a ∈ args, a.ty.compareTargets t u = .gt)
  | [], [], [], _, _, _, _ => by simp [somewhereBetter]
  | a :: as, x :: xs, y :: ys, hps, hqs, ht, hu => by
      obtain ⟨first, ht⟩ := List.forall_mem_cons.mp ht
      obtain ⟨second, hu⟩ := List.forall_mem_cons.mp hu
      have rest := somewhereBetter_iff (Nat.succ.inj hps) (Nat.succ.inj hqs) ht hu
      simp [somewhereBetter, first, second, rest]

/-- The overload has one parameter for each argument, and all of one type. -/
structure Asks (args : List Operand) (m : Method) (t : Ty) : Prop where
  arity : m.params.length = args.length
  types : ∀ x ∈ m.params, x.ty = t

theorem isBetter_iff (hm : Asks args m t) (hn : Asks args n u) :
    isBetter args m n ↔ (∀ a ∈ args, a.ty.compareTargets t u ≠ .lt) ∧
      ∃ a ∈ args, a.ty.compareTargets t u = .gt := by
  rw [isBetter, Bool.and_eq_true, noWorse_iff hm.arity hn.arity hm.types hn.types,
    somewhereBetter_iff hm.arity hn.arity hm.types hn.types]

/-- Betterness follows the order of the types known by name. -/
theorem isBetter_trans {p q r : Predefined} (hm : Asks args m (.predefined p))
    (hn : Asks args n (.predefined q)) (hk : Asks args k (.predefined r))
    (hmn : isBetter args m n) (hnk : isBetter args n k) : isBetter args m k := by
  obtain ⟨noWorse₁, a₁, ha₁, better₁⟩ := (isBetter_iff hm hn).mp hmn
  obtain ⟨noWorse₂, a₂, ha₂, better₂⟩ := (isBetter_iff hn hk).mp hnk
  simp only [ne_eq, Ty.compareTargets_eq_lt_iff_narrows, not_and, not_or] at noWorse₁ noWorse₂
  obtain ⟨apart₁, better₁⟩ := Ty.compareTargets_eq_gt_iff.mp better₁
  obtain ⟨apart₂, better₂⟩ := Ty.compareTargets_eq_gt_iff.mp better₂
  -- no argument has the type of a loser, and so the second target narrows to the third
  have first : ∀ a ∈ args, a.ty ≠ .predefined q := fun a ha => (noWorse₁ a ha (Ne.symm apart₁)).1
  have second : ∀ a ∈ args, a.ty ≠ .predefined r := fun a ha => (noWorse₂ a ha (Ne.symm apart₂)).1
  have onward := (better₂.resolve_left (first a₂ ha₂)).2
  have apart : Ty.predefined p ≠ .predefined r := by
    intro same
    rw [same] at better₁
    have loop := Predefined.narrows_trans (better₁.resolve_left (second a₁ ha₁)).2 onward
    simp [Ty.narrows] at loop
  refine (isBetter_iff hm hk).mpr ⟨fun a ha worse => ?_, a₁, ha₁, ?_⟩
  · obtain ⟨-, worse⟩ := Ty.compareTargets_eq_lt_iff_narrows.mp worse
    obtain ⟨other, back⟩ := worse.resolve_left (second a ha)
    exact (noWorse₁ a ha (Ne.symm apart₁)).2 other (Predefined.narrows_trans onward back)
  · refine Ty.compareTargets_eq_gt_iff.mpr ⟨apart, better₁.imp_right fun better => ?_⟩
    exact ⟨second a₁ ha₁, Predefined.narrows_trans better.2 onward⟩

end OneType

theorem applicable_arity {methods : List Method} (h : c ∈ applicable args methods) :
    c.method.params.length = args.length := by
  obtain ⟨passed, promotes, -⟩ := Option.map_eq_some_iff.mp (mem_applicable.mp h).2
  exact (promoteAll?_some promotes).fits.length_eq.symm.trans
    (promoteAll?_places promotes).length_eq.symm

/-- Overloads that each ask for one type known by name are ordered. -/
theorem transitive_of_asksOne {methods : List Method} (one : ∀ m ∈ methods, m.AsksOne) :
    Transitive args (applicable args methods) := by
  have asks : ∀ c ∈ applicable args methods,
      ∃ p : Predefined, Asks args c.method (.predefined p) := by
    intro c hc
    obtain ⟨p, types⟩ := one c.method (mem_applicable.mp hc).1
    exact ⟨p, applicable_arity hc, types⟩
  intro b hb c hc d hd hbc hcd
  obtain ⟨p, hp⟩ := asks b hb
  obtain ⟨q, hq⟩ := asks c hc
  obtain ⟨r, hr⟩ := asks d hd
  exact isBetter_trans hp hq hr hbc hcd

/-! ## Which overload is chosen -/

/-- The overload that is found applies and is better than every other one that does, and then it is
the only undominated one. The choice is ambiguous when some apply and none is better than every
other one; so it is whenever not just one is undominated. Where betterness is transitive, the
undominated ones decide: so it is for overloads that each ask for one type known by name. -/
theorem resolve_undominated (place : α) (methods : List Method) (args : List Operand) :
    (∀ p m passed, resolve place methods args = .found p m passed ↔
      p = place ∧ Wins args (applicable args methods) ⟨m, passed⟩) ∧
    (∀ p m passed, resolve place methods args = .found p m passed →
      undominated args (applicable args methods) = [⟨m, passed⟩]) ∧
    (resolve place methods args = .notFound ↔ applicable args methods = []) ∧
    (resolve place methods args = .ambiguous ↔
      applicable args methods ≠ [] ∧ ∀ c, ¬ Wins args (applicable args methods) c) ∧
    (applicable args methods ≠ [] → (undominated args (applicable args methods)).length ≠ 1 →
      resolve place methods args = .ambiguous) ∧
    (Transitive args (applicable args methods) →
      (∀ p m passed, resolve place methods args = .found p m passed ↔
        p = place ∧ undominated args (applicable args methods) = [⟨m, passed⟩]) ∧
      (resolve place methods args = .ambiguous ↔ applicable args methods ≠ [] ∧
        (undominated args (applicable args methods)).length ≠ 1)) ∧
    ((∀ m ∈ methods, m.AsksOne) → Transitive args (applicable args methods)) := by
  have crossed : applicable args methods ≠ [] →
      (undominated args (applicable args methods)).length ≠ 1 →
      resolve place methods args = .ambiguous := by
    intro some several
    refine resolve_ambiguous_iff.mpr ⟨some, fun c wins => several ?_⟩
    rw [wins.undominated]
    rfl
  refine ⟨fun _ _ _ => resolve_found_iff, fun _ _ _ h => (resolve_found_iff.mp h).2.undominated,
    resolve_notFound_iff, resolve_ambiguous_iff, crossed, fun trans => ⟨fun p m passed => ?_, ?_⟩,
    transitive_of_asksOne⟩
  · rw [resolve_found_iff, trans.wins_iff]
  · refine ⟨fun h => ?_, fun h => crossed h.1 h.2⟩
    obtain ⟨some, nobody⟩ := resolve_ambiguous_iff.mp h
    refine ⟨some, fun one => ?_⟩
    obtain ⟨c, only⟩ := List.length_eq_one_iff.mp one
    exact nobody c (trans.wins_iff.mpr only)

/-- Two numbers of 32 bits, passed to methods for fractions. Of the two overloads for one type of
fractions each, that for single ones is found; of two that cross, none. -/
theorem resolve_undominated_fractions :
    let x : Operand := .plain (.parameter ⟨0, "x", .int32⟩)
    let wide (t : Ty) : Operand := .plain (.convert false x.expr t)
    let double := Method.signature "F" [.double, .double]
    let single := Method.signature "F" [.single, .single]
    let crossing :=
      [Method.signature "F" [.single, .double], Method.signature "F" [.double, .single]]
    (resolve () [double, single] [x, x] = .found () single [wide .single, wide .single] ∧
      undominated [x, x] (applicable [x, x] [double, single]) =
        [⟨single, [wide .single, wide .single]⟩]) ∧
    (Transitive [x, x] (applicable [x, x] [double, single]) ∧
      resolve () [double, single] [x, x] ≠ .ambiguous) ∧
    (applicable [x, x] crossing ≠ [] ∧
      (undominated [x, x] (applicable [x, x] crossing)).length ≠ 1 ∧
      resolve () crossing [x, x] = .ambiguous) := by
  intro x wide double single crossing
  have found : resolve () [double, single] [x, x] = .found () single [wide .single, wide .single] :=
    rfl
  have rule := resolve_undominated () [double, single] [x, x]
  have only := rule.2.1 () single _ found
  have trans := rule.2.2.2.2.2.2 (by
    simp only [List.mem_cons, List.not_mem_nil, or_false]
    rintro m (rfl | rfl)
    · exact ⟨.double, by simp [double, Method.signature]⟩
    · exact ⟨.single, by simp [single, Method.signature]⟩)
  have some : applicable [x, x] crossing ≠ [] := List.cons_ne_nil _ _
  have several : (undominated [x, x] (applicable [x, x] crossing)).length ≠ 1 := by decide
  refine ⟨⟨found, only⟩, ⟨trans, fun h => ?_⟩, some, several,
    (resolve_undominated () crossing [x, x]).2.2.2.2.1 some several⟩
  exact (((rule.2.2.2.2.2.1 trans).2.mp h).2 (by rw [only]; rfl))

/-- Of three overloads for two numbers of 32 bits, only the first is undominated, and none is
found: decimals and fractions do not go to one another, so that the first is no better than the
third. -/
theorem ambiguous_one_undominated :
    let x : Operand := .plain (.parameter ⟨0, "x", .int32⟩)
    let y : Operand := .plain (.parameter ⟨1, "y", .int32⟩)
    let first := Method.signature "m0" [.single, .decimal]
    let methods := [first, Method.signature "m1" [.double, .single],
      Method.signature "m2" [.decimal, .double]]
    let passed : List Operand :=
      [.plain (.convert false x.expr .single), .plain (.convert false y.expr .decimal)]
    undominated [x, y] (applicable [x, y] methods) = [⟨first, passed⟩] ∧
      resolve () methods [x, y] = .ambiguous ∧
      ¬ (resolve () methods [x, y] = .found () first passed ↔
        undominated [x, y] (applicable [x, y] methods) = [⟨first, passed⟩]) := by
  intro x y first methods passed
  have only : undominated [x, y] (applicable [x, y] methods) = [⟨first, passed⟩] := rfl
  have crossed : resolve () methods [x, y] = .ambiguous := rfl
  refine ⟨only, crossed, fun rule => ?_⟩
  have found := rule.mpr only
  rw [crossed] at found
  cases found

end Overload
end TypedExpr
