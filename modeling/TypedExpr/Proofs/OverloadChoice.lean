import TypedExpr.Proofs.Promotion
import Mathlib.Data.List.Perm.Subperm
import Mathlib.Data.List.Perm.Basic
import Mathlib.Data.List.Sigma

/-! # What the choice of an overload depends on

Of two targets at most one is better, so of two overloads at most one is. The chosen overload is
the candidate that wins: it is better than each that is left when it is taken out. There is at most
one, wherever it stands and whoever loses, and the arguments change only when there is one.
-/

namespace TypedExpr

namespace Ty

variable {s t u : Ty}

/-- Integers have a sign or none. -/
theorem not_unsigned_of_signed (h : t.isSignedIntegral) : t.isUnsignedIntegral = false := by
  simp only [isSignedIntegral, beq_iff_eq] at h
  simp [isUnsignedIntegral, h]

/-- The second target is better where the first one would be with the two exchanged. -/
theorem compareTargets_swap (s t u : Ty) :
    (s.compareTargets t u).swap = s.compareTargets u t := by
  unfold compareTargets
  by_cases same : t = u
  · simp [same]
  by_cases first : s = t
  · subst first
    simp [same, Ne.symm same]
  by_cases second : s = u
  · subst second
    simp [same, first]
  -- a type is never on both sides of the rule for signs
  have signs := @not_unsigned_of_signed
  simp only [same, Ne.symm same, first, second, if_false]
  cases t.convertsTo u <;> cases u.convertsTo t <;>
    cases ht : t.isSignedIntegral <;> cases hu : u.isSignedIntegral <;>
    simp [ht, hu, signs, apply_ite Ordering.swap]

theorem compareTargets_eq_lt_iff : s.compareTargets t u = .lt ↔ s.compareTargets u t = .gt := by
  rw [← compareTargets_swap s u t]
  cases s.compareTargets u t <;> simp

end Ty

namespace Overload

variable {α : Type} {place p : α} {args : List Operand} {m n : Method}
  {cs ds : List Candidate} {c d : Candidate}

/-! ## One overload and another -/

/-- Parameters with a better target somewhere are not matched the other way round. -/
theorem noWorse_of_somewhereBetter : ∀ {args : List Operand} {ps qs : List Param},
    somewhereBetter args ps qs → noWorse args qs ps = false
  | a :: as, p :: ps, q :: qs, h => by
      simp only [somewhereBetter, Bool.or_eq_true, beq_iff_eq] at h
      simp only [noWorse, Bool.and_eq_false_iff, bne_eq_false_iff_eq]
      exact h.imp Ty.compareTargets_eq_lt_iff.mpr noWorse_of_somewhereBetter
  | [], _, _, h | _ :: _, [], _, h | _ :: _, _ :: _, [], h => by simp [somewhereBetter] at h

theorem isBetter_asymm (h : isBetter args m n) : isBetter args n m = false := by
  rw [isBetter, noWorse_of_somewhereBetter ((Bool.and_eq_true _ _).mp h).2, Bool.false_and]

@[simp] theorem isBetter_self (args : List Operand) (m : Method) : isBetter args m m = false := by
  cases h : isBetter args m m with
  | false => rfl
  | true => exact h.symm.trans (isBetter_asymm h)

/-! ## The winner among candidates -/

/-- The candidate is there, and better than each that is left without it. -/
def Wins (args : List Operand) (cs : List Candidate) (c : Candidate) : Prop :=
  ∃ rest, cs.Perm (c :: rest) ∧ ∀ d ∈ rest, isBetter args c.method d.method

theorem Wins.mem (h : Wins args cs c) : c ∈ cs := by
  obtain ⟨rest, perm, -⟩ := h
  exact perm.mem_iff.mpr List.mem_cons_self

theorem Wins.beats (h : Wins args cs c) (hd : d ∈ cs) (other : d ≠ c) :
    isBetter args c.method d.method := by
  obtain ⟨rest, perm, beats⟩ := h
  exact beats d ((List.mem_cons.mp (perm.mem_iff.mp hd)).resolve_left other)

theorem Wins.unique (hc : Wins args cs c) (hd : Wins args cs d) : c = d := by
  by_contra other
  have there := hc.beats hd.mem (Ne.symm other)
  have back := hd.beats hc.mem other
  rw [isBetter_asymm there] at back
  cases back

theorem Wins.perm (h : Wins args cs c) (hp : cs.Perm ds) : Wins args ds c := by
  obtain ⟨rest, perm, beats⟩ := h
  exact ⟨rest, hp.symm.trans perm, beats⟩

/-- Who wins wins among fewer. -/
theorem Wins.sublist (h : Wins args cs c) (hs : ds.Sublist cs) (hc : c ∈ ds) :
    Wins args ds c := by
  obtain ⟨rest, perm, beats⟩ := h
  obtain ⟨before, after, rfl⟩ := List.append_of_mem hc
  refine ⟨before ++ after, List.perm_middle, fun d hd => beats d ?_⟩
  have kept : (c :: (before ++ after)).Subperm (c :: rest) :=
    List.perm_middle.symm.subperm.trans (hs.subperm.trans perm.subperm)
  exact ((List.subperm_cons c).mp kept).subset hd

theorem beatsOthers_iff {i : Nat} :
    beatsOthers args cs i c ↔ ∀ d ∈ cs.eraseIdx i, isBetter args c.method d.method := by
  simp only [beatsOthers, List.all_eq_true, Bool.or_eq_true, beq_iff_eq,
    List.mem_eraseIdx_iff_getElem?]
  constructor
  · rintro h d ⟨j, other, hj⟩
    exact (h (d, j) (List.mem_zipIdx_iff_getElem?.mpr hj)).resolve_left (Ne.symm other)
  · rintro h ⟨d, j⟩ hj
    exact or_iff_not_imp_left.mpr fun other =>
      h d ⟨j, Ne.symm other, List.mem_zipIdx_iff_getElem?.mp hj⟩

/-- Candidates at two places do not both beat all others. -/
theorem beatsOthers_unique {i j : Nat} (hi : cs[i]? = some c) (hj : cs[j]? = some d)
    (hc : beatsOthers args cs i c) (hd : beatsOthers args cs j d) : i = j := by
  by_contra other
  have there := beatsOthers_iff.mp hc d (List.mem_eraseIdx_iff_getElem?.mpr ⟨j, Ne.symm other, hj⟩)
  have back := beatsOthers_iff.mp hd c (List.mem_eraseIdx_iff_getElem?.mpr ⟨i, other, hi⟩)
  rw [isBetter_asymm there] at back
  cases back

theorem wins_iff_beatsOthers :
    Wins args cs c ↔ ∃ i, cs[i]? = some c ∧ beatsOthers args cs i c := by
  constructor
  · intro h
    obtain ⟨i, hi⟩ := List.getElem?_of_mem h.mem
    obtain ⟨rest, perm, beats⟩ := h
    obtain ⟨bound, rfl⟩ := List.getElem?_eq_some_iff.mp hi
    have left : (cs.eraseIdx i).Perm rest :=
      ((List.getElem_cons_eraseIdx_perm bound).trans perm).cons_inv
    exact ⟨i, hi, beatsOthers_iff.mpr fun d hd => beats d (left.mem_iff.mp hd)⟩
  · rintro ⟨i, hi, beats⟩
    obtain ⟨bound, rfl⟩ := List.getElem?_eq_some_iff.mp hi
    exact ⟨cs.eraseIdx i, (List.getElem_cons_eraseIdx_perm bound).symm, beatsOthers_iff.mp beats⟩

theorem best_eq_singleton_iff : best args cs = [c] ↔ Wins args cs c := by
  rw [wins_iff_beatsOthers]
  constructor
  · intro only
    have there : c ∈ best args cs := by simp [only]
    obtain ⟨⟨d, i⟩, hd, rfl⟩ := List.mem_map.mp there
    obtain ⟨hi, beats⟩ := List.mem_filter.mp hd
    exact ⟨i, List.mem_zipIdx_iff_getElem?.mp hi, beats⟩
  · rintro ⟨i, hi, beats⟩
    have places : cs.zipIdx.Nodup := (List.nodup_zipIdx_map_snd cs).of_map
    have only : cs.zipIdx.filter (fun x => beatsOthers args cs x.2 x.1) = [(c, i)] := by
      refine List.perm_singleton.mp ?_
      refine (List.perm_ext_iff_of_nodup (places.filter _) (List.nodup_singleton _)).mpr ?_
      rintro ⟨d, j⟩
      rw [List.mem_filter, List.mem_zipIdx_iff_getElem?, List.mem_singleton]
      constructor
      · rintro ⟨hj, beats'⟩
        obtain rfl := beatsOthers_unique hi hj beats beats'
        rw [Option.some.inj (hi.symm.trans hj)]
      · intro same
        cases same
        exact ⟨hi, beats⟩
    simp [best, only]

/-! ## The outcome -/

/-- The overloads that apply, each with the arguments in the types of its parameters. -/
def applicable (args : List Operand) (methods : List Method) : List Candidate :=
  methods.filterMap (candidate? args)

theorem mem_applicable {methods : List Method} :
    c ∈ applicable args methods ↔ c.method ∈ methods ∧ candidate? args c.method = some c := by
  simp only [applicable, List.mem_filterMap]
  constructor
  · rintro ⟨n, hn, hc⟩
    obtain ⟨rfl, -⟩ := candidate?_some hc
    exact ⟨hn, hc⟩
  · rintro ⟨hm, hc⟩
    exact ⟨c.method, hm, hc⟩

/-- None applies, or one wins, or there are several and none wins. -/
theorem resolve_cases (place : α) (methods : List Method) (args : List Operand) :
    applicable args methods = [] ∧ resolve place methods args = .notFound ∨
    (∃ c, Wins args (applicable args methods) c ∧
      resolve place methods args = .found place c.method c.args) ∨
    (applicable args methods ≠ [] ∧ (∀ c, ¬ Wins args (applicable args methods) c) ∧
      resolve place methods args = .ambiguous) := by
  simp only [resolve, applicable]
  split
  · rename_i none
    exact .inl ⟨none, rfl⟩
  · rename_i c only
    exact .inr (.inl ⟨c, ⟨[], by simp [only], by simp⟩, rfl⟩)
  · rename_i none _
    split
    · rename_i c only
      exact .inr (.inl ⟨c, best_eq_singleton_iff.mp only, rfl⟩)
    · rename_i several
      exact .inr (.inr ⟨none, fun c h => several c (best_eq_singleton_iff.mpr h), rfl⟩)

theorem resolve_notFound_iff {methods : List Method} :
    resolve place methods args = .notFound ↔ applicable args methods = [] := by
  rcases resolve_cases place methods args with ⟨none, h⟩ | ⟨c, wins, h⟩ | ⟨some, -, h⟩
  · simp [h, none]
  · simp [h, List.ne_nil_of_mem wins.mem]
  · simp [h, some]

theorem resolve_found_iff {methods : List Method} {passed : List Operand} :
    resolve place methods args = .found p m passed ↔
      p = place ∧ Wins args (applicable args methods) ⟨m, passed⟩ := by
  rcases resolve_cases place methods args with ⟨none, h⟩ | ⟨c, wins, h⟩ | ⟨-, nobody, h⟩
  · have nobody : ¬ Wins args (applicable args methods) ⟨m, passed⟩ := by
      intro wins
      simpa [none] using wins.mem
    simp [h, nobody]
  · rw [h, Resolution.found.injEq]
    constructor
    · rintro ⟨rfl, rfl, rfl⟩
      exact ⟨rfl, wins⟩
    · rintro ⟨rfl, wins'⟩
      obtain rfl := wins.unique wins'
      exact ⟨rfl, rfl, rfl⟩
  · simp [h, nobody]

theorem resolve_ambiguous_iff {methods : List Method} :
    resolve place methods args = .ambiguous ↔
      applicable args methods ≠ [] ∧ ∀ c, ¬ Wins args (applicable args methods) c := by
  rcases resolve_cases place methods args with ⟨none, h⟩ | ⟨c, wins, h⟩ | ⟨some, nobody, h⟩
  · simp [h, none]
  · simp only [h, reduceCtorEq, false_iff, not_and, not_forall, not_not]
    exact fun _ => ⟨c, wins⟩
  · simp [h, some, nobody]

theorem resolve_perm {methods methods' : List Method} (h : methods.Perm methods') :
    resolve place methods' args = resolve place methods args := by
  have perm : (applicable args methods).Perm (applicable args methods') := h.filterMap _
  rcases resolve_cases place methods args with ⟨none, h⟩ | ⟨c, wins, h⟩ | ⟨some, nobody, h⟩
  · rw [h, resolve_notFound_iff]
    rw [none] at perm
    exact perm.nil_eq.symm
  · rw [h, resolve_found_iff]
    exact ⟨rfl, wins.perm perm⟩
  · rw [h, resolve_ambiguous_iff]
    refine ⟨fun none => some ?_, fun c wins => nobody c (wins.perm perm.symm)⟩
    rw [none] at perm
    exact perm.eq_nil

/-- The chosen overload is chosen among fewer. -/
theorem resolve_sublist {methods sub : List Method} {passed : List Operand}
    (h : resolve place methods args = .found p m passed) (hs : sub.Sublist methods)
    (hm : m ∈ sub) : resolve place sub args = .found p m passed := by
  obtain ⟨rfl, wins⟩ := resolve_found_iff.mp h
  have applies := (mem_applicable.mp wins.mem).2
  exact resolve_found_iff.mpr
    ⟨rfl, wins.sublist (hs.filterMap _) (mem_applicable.mpr ⟨hm, applies⟩)⟩

end Overload

/-! ## The choice in place -/

/-- The arguments after a choice: those in the types of the parameters, or those that were given. -/
def Resolution.argsOr {α : Type} (args : List Operand) : Resolution α → List Operand
  | .found _ _ passed => passed
  | _ => args

namespace Overload

variable {α : Type} {args : List Operand}

/-- The choice with one list of arguments, which those in the types of the parameters replace. -/
def resolveInPlace (place : α) (methods : List Method) :
    StateM (List Operand) (Resolution α) := do
  let args ← get
  let candidates := methods.filterMap (candidate? args)
  if candidates.isEmpty then return .notFound
  match if 1 < candidates.length then best args candidates else candidates with
  | [c] =>
    set c.args
    return .found place c.method c.args
  | _ => return .ambiguous

theorem resolveInPlace_run (place : α) (methods : List Method) (args : List Operand) :
    (resolveInPlace place methods).run args =
      (resolve place methods args, (resolve place methods args).argsOr args) := by
  simp only [resolveInPlace, resolve, StateT.run_bind, StateT.run_get, pure_bind]
  rcases methods.filterMap (candidate? args) with _ | ⟨c, _ | ⟨d, rest⟩⟩
  · rfl
  · rfl
  · have several : 1 < (c :: d :: rest).length := by simp
    simp only [List.isEmpty_cons, Bool.false_eq_true, if_false, if_pos several]
    rcases best args (c :: d :: rest) with _ | ⟨e, _ | ⟨f, more⟩⟩ <;> rfl

/-- The search through layers with one list of arguments for all of them. -/
def resolveLayersInPlace (methodsOf : α → List Method) :
    List α → StateM (List Operand) (Resolution α)
  | [] => return .notFound
  | layer :: rest => do
    match ← resolveInPlace layer (methodsOf layer) with
    | .notFound => resolveLayersInPlace methodsOf rest
    | outcome => return outcome

/-- A layer without an overload that applies leaves the arguments to the next one as they were. -/
theorem resolveLayersInPlace_run (methodsOf : α → List Method) (args : List Operand) :
    ∀ layers : List α, (resolveLayersInPlace methodsOf layers).run args =
      (resolveLayers methodsOf args layers, (resolveLayers methodsOf args layers).argsOr args)
  | [] => rfl
  | layer :: rest => by
      have first := resolveInPlace_run layer (methodsOf layer) args
      rw [resolveLayersInPlace, StateT.run_bind, first, resolveLayers]
      cases resolve layer (methodsOf layer) args with
      | notFound => exact resolveLayersInPlace_run methodsOf args rest
      | ambiguous | found => rfl

/-! ## Neither the order nor the losers matter -/

/-- At most one candidate beats all others. The order of the overloads does not matter, and leaving
out others than the chosen one does not either. The choice in place comes to the same, and leaves
the arguments as they were unless it finds an overload. -/
theorem resolve_stable (place : α) (methods : List Method) (args : List Operand) :
    (∀ i j c d, (applicable args methods)[i]? = some c → (applicable args methods)[j]? = some d →
      beatsOthers args (applicable args methods) i c →
      beatsOthers args (applicable args methods) j d → i = j) ∧
    (∀ methods', methods.Perm methods' →
      resolve place methods' args = resolve place methods args) ∧
    (∀ p m passed, resolve place methods args = .found p m passed →
      ∀ sub : List Method, sub.Sublist methods → m ∈ sub →
        resolve place sub args = .found p m passed) ∧
    (∀ outcome after, (resolveInPlace place methods).run args = (outcome, after) →
      outcome = resolve place methods args ∧
      (∀ p m passed, outcome = .found p m passed → after = passed) ∧
      ((∀ p m passed, outcome ≠ .found p m passed) → after = args)) := by
  refine ⟨fun _ _ _ _ => beatsOthers_unique, fun _ => resolve_perm,
    fun _ _ _ h _ => resolve_sublist h, fun outcome after run => ?_⟩
  rw [resolveInPlace_run] at run
  obtain ⟨rfl, rfl⟩ := Prod.mk.inj run
  refine ⟨rfl, fun p m passed h => by rw [h, Resolution.argsOr], fun other => ?_⟩
  cases h : resolve place methods args with
  | notFound | ambiguous => rfl
  | found p m passed => exact absurd h (other p m passed)

/-- A number of 32 bits, passed to a method for numbers of 64 bits and to one for its own type. -/
theorem resolve_stable_widened :
    let x : Operand := .plain (.parameter ⟨0, "x", .int32⟩)
    let wide := Method.signature "F" [.int64]
    let exact := Method.signature "F" [.int32]
    let cs := applicable [x] [wide, exact]
    (beatsOthers [x] cs 1 ⟨exact, [x]⟩ ∧
      ¬ beatsOthers [x] cs 0 ⟨wide, [.plain (.convert false x.expr .int64)]⟩) ∧
    ([wide, exact].Perm [exact, wide] ∧
      resolve () [exact, wide] [x] = resolve () [wide, exact] [x]) ∧
    (resolve () [wide, exact] [x] = .found () exact [x] ∧
      resolve () [exact] [x] = .found () exact [x]) ∧
    (resolveInPlace () ([] : List Method)).run [x] = (.notFound, [x]) := by
  intro x wide exact cs
  have stable := resolve_stable () [wide, exact] [x]
  have found : resolve () [wide, exact] [x] = .found () exact [x] := rfl
  have beats : beatsOthers [x] cs 1 ⟨exact, [x]⟩ := rfl
  refine ⟨⟨beats, fun beats' => absurd (stable.1 1 0 _ _ rfl rfl beats beats') (by decide)⟩,
    ⟨List.Perm.swap .., stable.2.1 _ (List.Perm.swap ..)⟩, ⟨found, ?_⟩, ?_⟩
  · exact stable.2.2.1 () exact [x] found [exact] (by simp) (by simp)
  · have none := (resolve_stable () [] [x]).2.2.2 .notFound [x] rfl
    exact Prod.ext rfl (none.2.2 (by simp))

end Overload
end TypedExpr
