import Mathlib.Data.List.Chain
import Mathlib.Data.List.Nodup
import TypedExpr.Proofs.Ancestors

/-!
# The order of the types above

One interface may be extended in many ways. A walk without memory comes by it once for each of
them. Members are searched along the walk that remembers: it is the same one, with each interface
left where it is first come by. A loop with a stack goes through it in one step for each link, so
that it ends however often interfaces are shared. The bases of a class are one chain.
-/

namespace TypedExpr

namespace ClassType

variable {c d : ClassType} {cs : List ClassType}

mutual

/-- What a walk up from an interface comes by, depth first, in the declared order and without
memory: each interface once for every way that leads to it. -/
def encounters : ClassType → List ClassType
  | ⟨i, n, b, interfaces, f, e, ps, fs, ms, cs, xs⟩ =>
    ⟨i, n, b, interfaces, f, e, ps, fs, ms, cs, xs⟩ :: allEncounters interfaces

def allEncounters : List ClassType → List ClassType
  | [] => []
  | c :: cs => c.encounters ++ allEncounters cs

end

/-- How many links some interfaces declare. -/
def links (cs : List ClassType) : Nat := (cs.flatMap (·.interfaces)).length

/-! ## What is encountered -/

theorem encounters_eq (c : ClassType) : c.encounters = c :: allEncounters c.interfaces := by
  obtain ⟨_, _, _, _, _, _, _, _, _, _, _⟩ := c
  rw [encounters]

theorem mem_allEncounters : d ∈ allEncounters cs ↔ ∃ c ∈ cs, d ∈ c.encounters := by
  induction cs with
  | nil => simp [allEncounters]
  | cons b cs ih => simp [allEncounters, ih]

theorem allEncounters_append (cs ds : List ClassType) :
    allEncounters (cs ++ ds) = allEncounters cs ++ allEncounters ds := by
  induction cs with
  | nil => rfl
  | cons c cs ih =>
      rw [List.cons_append, allEncounters, allEncounters, ih, List.append_assoc]

theorem Extends.sizeOf_lt (link : c.Extends d) : sizeOf d < sizeOf c := by
  obtain ⟨_, _, _, interfaces, _, _, _, _, _, _, _⟩ := c
  have inside := List.sizeOf_lt_of_mem (show d ∈ interfaces from link)
  simp only [mk.sizeOf_spec]
  omega

/-- Links lead round in no circle. -/
theorem extends_wellFounded : WellFounded fun d c => Extends c d :=
  Subrelation.wf Extends.sizeOf_lt (measure (sizeOf : ClassType → Nat)).wf

theorem mem_encounters_iff : d ∈ c.encounters ↔ Relation.ReflTransGen Extends c d := by
  induction c using extends_wellFounded.induction with
  | _ c ih =>
      rw [encounters_eq, List.mem_cons, mem_allEncounters, Relation.ReflTransGen.cases_head_iff]
      exact or_congr eq_comm (exists_congr fun b => and_congr_right fun link => ih b link)

theorem encounters_subset (mem : d ∈ c.encounters) : d.encounters ⊆ c.encounters := by
  intro e mem'
  exact mem_encounters_iff.mpr ((mem_encounters_iff.mp mem).trans (mem_encounters_iff.mp mem'))

private theorem sizeOf_le_of_mem_encounters (mem : d ∈ c.encounters) : sizeOf d ≤ sizeOf c := by
  induction mem_encounters_iff.mp mem with
  | refl => exact le_rfl
  | tail walk link ih => exact link.sizeOf_lt.le.trans (ih (mem_encounters_iff.mpr walk))

/-- Nothing that an interface extends leads back to it. -/
theorem notMem_allEncounters (c : ClassType) : c ∉ allEncounters c.interfaces := by
  intro again
  obtain ⟨b, link, mem⟩ := mem_allEncounters.mp again
  have smaller := Extends.sizeOf_lt link
  have larger := sizeOf_le_of_mem_encounters mem
  omega

end ClassType

namespace Catalog

open ClassType

variable {c d : ClassType} {cs walked ahead : List ClassType}

/-! ## First encounters -/

theorem visitInterface_eq (c : ClassType) (seen : List Ty) :
    visitInterface c seen =
      if .cls c ∈ seen then seen else visitInterfaces c.interfaces (seen ++ [.cls c]) := by
  obtain ⟨_, _, _, _, _, _, _, _, _, _, _⟩ := c
  rw [visitInterface]

theorem visitInterfaces_append (cs ds : List ClassType) (seen : List Ty) :
    visitInterfaces (cs ++ ds) seen = visitInterfaces ds (visitInterfaces cs seen) := by
  induction cs generalizing seen with
  | nil => rw [List.nil_append, visitInterfaces]
  | cons c cs ih => rw [List.cons_append, visitInterfaces, visitInterfaces, ih]

private theorem cls_mem_map : Ty.cls c ∈ cs.map .cls ↔ c ∈ cs := by
  simp

private theorem eraseDups_append_of_subset (old : ahead ⊆ walked) :
    (walked ++ ahead).eraseDups = walked.eraseDups := by
  have none : ahead.removeAll walked = [] := by
    rw [List.removeAll, List.filter_eq_nil_iff]
    intro c mem
    simpa using old mem
  rw [List.eraseDups_append, none, List.eraseDups_nil, List.append_nil]

private theorem eraseDups_concat_of_notMem (new : c ∉ walked) :
    (walked ++ [c]).eraseDups = walked.eraseDups ++ [c] := by
  have one : [c].removeAll walked = [c] := by simp [List.removeAll, new]
  rw [List.eraseDups_append, one]
  rfl

/-- Of an interface that has been come by and lies ahead again, all that it leads to has been come
by. -/
private def Complete (walked ahead : List ClassType) : Prop :=
  ∀ d ∈ walked, d ∈ ahead → d.encounters ⊆ walked

/-- The walk that remembers adds what is come by for the first time. -/
private def AddsFirst (c : ClassType) : Prop :=
  ∀ walked, Complete walked c.encounters →
    visitInterface c (walked.eraseDups.map .cls) = (walked ++ c.encounters).eraseDups.map .cls

private theorem visitInterfaces_addsFirst (each : ∀ c ∈ cs, AddsFirst c)
    (complete : Complete walked (allEncounters cs)) :
    visitInterfaces cs (walked.eraseDups.map .cls) =
      (walked ++ allEncounters cs).eraseDups.map .cls := by
  induction cs generalizing walked with
  | nil => rw [visitInterfaces, allEncounters, List.append_nil]
  | cons c cs ih =>
      have here : Complete walked c.encounters := fun d mem again =>
        complete d mem (List.mem_append_left _ again)
      have later : Complete (walked ++ c.encounters) (allEncounters cs) := by
        intro d mem again
        rcases List.mem_append.mp mem with mem | mem
        · exact List.subset_append_of_subset_left _
            (complete d mem (List.mem_append_right _ again))
        · -- what lies above the first interface comes with all that is above it in turn
          exact List.subset_append_of_subset_right _ (encounters_subset mem)
      rw [visitInterfaces, each c List.mem_cons_self walked here,
        ih (fun d mem => each d (List.mem_cons_of_mem c mem)) later, allEncounters,
        List.append_assoc]

private theorem addsFirst (c : ClassType) : AddsFirst c := by
  induction c using extends_wellFounded.induction with
  | _ c ih =>
      intro walked complete
      rw [visitInterface_eq]
      by_cases known : c ∈ walked
      · have above : c.encounters ⊆ walked :=
          complete c known (mem_encounters_iff.mpr .refl)
        rw [if_pos (cls_mem_map.mpr (List.mem_eraseDups.mpr known)),
          eraseDups_append_of_subset above]
      · have later : Complete (walked ++ [c]) (allEncounters c.interfaces) := by
          intro d mem again
          have again' : d ∈ c.encounters := by
            rw [encounters_eq]
            exact List.mem_cons_of_mem c again
          rcases List.mem_append.mp mem with mem | mem
          · exact List.subset_append_of_subset_left _ (complete d mem again')
          · -- the interface that is being visited is not come by again above it
            cases List.mem_singleton.mp mem
            exact absurd again (notMem_allEncounters c)
        have step : walked.eraseDups.map Ty.cls ++ [.cls c] =
            (walked ++ [c]).eraseDups.map .cls := by
          rw [eraseDups_concat_of_notMem known, List.map_append, List.map_singleton]
        rw [if_neg (mt cls_mem_map.mp (mt List.mem_eraseDups.mp known)), step,
          visitInterfaces_addsFirst ih later, encounters_eq, List.append_assoc,
          List.singleton_append]

/-- The types above an interface are those of the walk without memory, each one where it is first
come by. -/
theorem visitInterface_eq_eraseDups (c : ClassType) :
    visitInterface c [] = c.encounters.eraseDups.map .cls :=
  addsFirst c [] fun _ mem => absurd mem List.not_mem_nil

end Catalog

/-! ## The loop -/

/-- A walk that is under way: the interfaces on the stack, its top in front, and those that have
been visited. -/
structure Walk where
  stack : List ClassType
  visited : List ClassType

namespace Walk

open ClassType

/-- Take the top of the stack. An interface that is new is visited, and what it extends is put on
the stack, the last one first, so that the first one comes next. -/
def step : Walk → Option Walk
  | ⟨[], _⟩ => none
  | ⟨c :: stack, visited⟩ => some <|
    if c ∈ visited then ⟨stack, visited⟩
    else ⟨c.interfaces.foldr List.cons stack, visited ++ [c]⟩

/-- So many steps lead from one state of a walk to another one. -/
inductive Steps : Walk → Nat → Walk → Prop
  | done (w : Walk) : Steps w 0 w
  | next {w w' w'' : Walk} {n : Nat} (first : w.step = some w') (rest : Steps w' n w'') :
    Steps w (n + 1) w''

/-- What a step can do. -/
inductive Move : Walk → Walk → Prop
  | skip {c stack visited} (known : c ∈ visited) : Move ⟨c :: stack, visited⟩ ⟨stack, visited⟩
  | visit {c stack visited} (new : c ∉ visited) :
    Move ⟨c :: stack, visited⟩ ⟨c.interfaces ++ stack, visited ++ [c]⟩

variable {w w' w'' : Walk} {m n : Nat}

theorem step_cases (h : w.step = some w') : Move w w' := by
  obtain ⟨stack, visited⟩ := w
  cases stack with
  | nil => cases h
  | cons c stack =>
      rw [step, Option.some.injEq] at h
      split at h
      · cases h
        exact .skip ‹_›
      · rw [List.foldr_cons_eq_append, List.map_id'] at h
        cases h
        exact .visit ‹_›

theorem step_eq_none (h : w.step = none) : w.stack = [] := by
  obtain ⟨stack, visited⟩ := w
  cases stack with
  | nil => rfl
  | cons c stack => cases h

/-! ### The loop ends -/

/-- Each step leaves less to come by. -/
theorem length_encounters_lt (h : w.step = some w') :
    (allEncounters w'.stack).length < (allEncounters w.stack).length := by
  cases step_cases h with
  | @skip c stack visited known =>
      simp only [allEncounters, encounters_eq c, List.length_append, List.length_cons]
      omega
  | @visit c stack visited new =>
      simp only [allEncounters, encounters_eq c, allEncounters_append, List.length_append,
        List.length_cons]
      omega

theorem step_wellFounded : WellFounded fun w' w : Walk => w.step = some w' :=
  Subrelation.wf length_encounters_lt (measure fun w : Walk => (allEncounters w.stack).length).wf

theorem finishes (w : Walk) : ∃ n visited, Steps w n ⟨[], visited⟩ := by
  induction w using step_wellFounded.induction with
  | _ w ih =>
      cases h : w.step with
      | none =>
          obtain ⟨stack, visited⟩ := w
          cases step_eq_none h
          exact ⟨0, visited, .done _⟩
      | some w' =>
          obtain ⟨n, visited, rest⟩ := ih w' h
          exact ⟨n + 1, visited, .next h rest⟩

/-! ### What the loop has visited -/

/-- What will have been visited in the end. -/
private def outcome (w : Walk) : List Ty := Catalog.visitInterfaces w.stack (w.visited.map .cls)

/-- What a number of steps keeps: the outcome, no interface twice, and one step for each interface
on the stack and each link of a visited one. -/
private structure Keeps (w : Walk) (n : Nat) (w' : Walk) : Prop where
  same : w'.outcome = w.outcome
  once : w.visited.Nodup → w'.visited.Nodup
  counted : w'.stack.length + n + links w.visited = w.stack.length + links w'.visited

private theorem Keeps.refl (w : Walk) : Keeps w 0 w where
  same := rfl
  once := id
  counted := rfl

private theorem Keeps.step (h : w.step = some w') : Keeps w 1 w' := by
  cases step_cases h with
  | @skip c stack visited known =>
      have same : Catalog.visitInterface c (visited.map .cls) = visited.map .cls := by
        rw [Catalog.visitInterface_eq, if_pos (Catalog.cls_mem_map.mpr known)]
      refine ⟨?_, id, ?_⟩
      · simp only [outcome, Catalog.visitInterfaces, same]
      · rw [List.length_cons, Nat.add_right_comm]
  | @visit c stack visited new =>
      have more : Catalog.visitInterface c (visited.map .cls) =
          Catalog.visitInterfaces c.interfaces ((visited ++ [c]).map .cls) := by
        rw [Catalog.visitInterface_eq, if_neg (mt Catalog.cls_mem_map.mp new), List.map_append,
          List.map_singleton]
      refine ⟨?_, fun once => ?_, ?_⟩
      · simp only [outcome, Catalog.visitInterfaces, more, Catalog.visitInterfaces_append]
      · exact once.append (List.nodup_singleton c) (List.disjoint_singleton.mpr new)
      · simp only [links, List.flatMap_append, List.flatMap_singleton, List.length_append,
          List.length_cons]
        omega

private theorem Keeps.trans (h : Keeps w m w') (h' : Keeps w' n w'') :
    Keeps w (m + n) w'' where
  same := h'.same.trans h.same
  once := h'.once ∘ h.once
  counted := by
    have first := h.counted
    have second := h'.counted
    omega

private theorem Steps.keeps (h : Steps w n w') : Keeps w n w' := by
  induction h with
  | done w => exact .refl w
  | @next w w' w'' n first rest ih =>
      rw [Nat.add_comm]
      exact (Keeps.step first).trans ih

end Walk

namespace Catalog

open ClassType

variable {c d : ClassType} {above chain : List ClassType}

/-- The interfaces above an interface: each one that links lead to, once, in the order in which a
walk without memory first comes by them. The loop ends with them, after a step for the interface
itself and one for each link. -/
structure FirstVisits (c : ClassType) (above : List ClassType) : Prop where
  first : above.head? = some c
  reached : ∀ d, d ∈ above ↔ Relation.ReflTransGen Extends c d
  once : above.Nodup
  ordered : above = c.encounters.eraseDups
  looped : Walk.Steps ⟨[c], []⟩ (1 + links above) ⟨[], above⟩

/-- A class and its bases, each one behind the class whose base it is. -/
structure BaseChain (c : ClassType) (chain : List ClassType) : Prop where
  first : chain.head? = some c
  linked : chain.IsChain HasBase
  ended : ∀ d ∈ chain.getLast?, d.base = none

private theorem firstVisits (c : ClassType) :
    ∃ above : List ClassType, visitInterface c [] = above.map .cls ∧ FirstVisits c above := by
  obtain ⟨n, above, steps⟩ := Walk.finishes ⟨[c], []⟩
  obtain ⟨outcome, once, counted⟩ := steps.keeps
  have same : visitInterface c [] = above.map .cls := outcome.symm
  have ordered : above = c.encounters.eraseDups := by
    rw [visitInterface_eq_eraseDups] at same
    exact (List.map_injective_iff.mpr (fun _ _ => Ty.cls.inj) same).symm
  have number : n = 1 + links above := by simpa [links] using counted
  refine ⟨above, same, ⟨?_, fun d => ?_, once List.nodup_nil, ordered, number ▸ steps⟩⟩
  · rw [ordered, encounters_eq, List.eraseDups_cons, List.head?_cons]
  · rw [ordered, List.mem_eraseDups, mem_encounters_iff]

theorem BaseChain.single (top : c.base = none) : BaseChain c [c] where
  first := rfl
  linked := .singleton c
  ended := by
    rintro _ ⟨⟩
    exact top

theorem BaseChain.cons (link : c.HasBase d) (bases : BaseChain d chain) :
    BaseChain c (c :: chain) := by
  obtain ⟨rest, rfl⟩ := List.head?_eq_some_iff.mp bases.first
  refine ⟨rfl, .cons_cons link bases.linked, ?_⟩
  rw [List.getLast?_cons_cons]
  exact bases.ended

private theorem exists_baseChain : ∀ c : ClassType,
    ∃ chain : List ClassType, baseChain c = chain.map .cls ∧ BaseChain c chain
  | ⟨i, n, none, is, f, e, ps, fs, ms, cs, xs⟩ => by
      rw [baseChain]
      exact ⟨[_], rfl, .single rfl⟩
  | ⟨i, n, some b, is, f, e, ps, fs, ms, cs, xs⟩ => by
      obtain ⟨chain, same, bases⟩ := exists_baseChain b
      rw [baseChain, same]
      exact ⟨_ :: chain, rfl, bases.cons rfl⟩

/-- Above an interface there are the interfaces that it extends, each one once and where a walk up
from it first comes by, and above a class there are its bases. `Object` is above them all. -/
theorem ancestors_in_order (c : ClassType) : ∃ above : List ClassType,
    selfAndBases (.cls c) = above.map .cls ++ [.object] ∧
      if c.isInterface then FirstVisits c above else BaseChain c above := by
  rw [selfAndBases]
  split
  · obtain ⟨above, same, visits⟩ := firstVisits c
    exact ⟨above, by rw [same], visits⟩
  · obtain ⟨chain, same, bases⟩ := exists_baseChain c
    exact ⟨chain, by rw [same], bases⟩

private def countable : ClassType := ⟨1, "Countable", none, [], true, none, [], [], [], [], []⟩

private def indexed : ClassType := ⟨2, "Indexed", none, [countable], true, none, [], [], [], [], []⟩

private def growing : ClassType := ⟨3, "Growing", none, [countable], true, none, [], [], [], [], []⟩

private def listed : ClassType :=
  ⟨4, "Listed", none, [indexed, growing, indexed], true, none, [], [], [], [], []⟩

/-- What two interfaces extend comes right behind the first one. -/
example : selfAndBases (.cls listed) =
    [.cls listed, .cls indexed, .cls countable, .cls growing, .object] := by rfl

end Catalog
end TypedExpr
