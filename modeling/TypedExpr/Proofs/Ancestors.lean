import Mathlib.Logic.Relation
import TypedExpr.Catalog

/-! # The types above a class

Members of a class are searched along its bases, those of an interface along the interfaces that it
extends. Either walk comes by all that its links lead to, and by nothing else but `Object`. Neither
walk takes the links of the other: what a class implements is above it for conversions only.
-/

namespace TypedExpr

namespace ClassType

/-- The link that is followed from a class. -/
def HasBase (c d : ClassType) : Prop := c.base = some d

/-- The links that are followed from an interface. -/
def Extends (c d : ClassType) : Prop := d ∈ c.interfaces

/-- Members of the first class are searched on the second one, too. -/
def Above (c d : ClassType) : Prop :=
  if c.isInterface then Relation.ReflTransGen Extends c d else Relation.ReflTransGen HasBase c d

variable {c d : ClassType}

theorem derivesFrom_refl (c : ClassType) : c.derivesFrom c := by
  obtain ⟨_, _, _, _, _, _, _, _, _, _, _⟩ := c
  simp [derivesFrom]

theorem anyDerivesFrom_of_mem {cs : List ClassType} (mem : c ∈ cs) (h : c.derivesFrom d) :
    anyDerivesFrom cs d := by
  induction cs with
  | nil => cases mem
  | cons b cs ih =>
      rw [anyDerivesFrom, Bool.or_eq_true]
      rcases List.mem_cons.mp mem with rfl | mem
      · exact .inl h
      · exact .inr (ih mem)

theorem HasBase.derivesFrom {b : ClassType} (link : c.HasBase b) (h : b.derivesFrom d) :
    c.derivesFrom d := by
  obtain ⟨_, _, base, _, _, _, _, _, _, _, _⟩ := c
  cases (show base = some b from link)
  simp [ClassType.derivesFrom, baseDerivesFrom, h]

theorem Extends.derivesFrom {b : ClassType} (link : c.Extends b) (h : b.derivesFrom d) :
    c.derivesFrom d := by
  obtain ⟨_, _, _, interfaces, _, _, _, _, _, _, _⟩ := c
  have above : anyDerivesFrom interfaces d := anyDerivesFrom_of_mem link h
  simp [ClassType.derivesFrom, above]

private theorem derivesFrom_of_walk {link : ClassType → ClassType → Prop}
    (derives : ∀ {a b}, link a b → b.derivesFrom d → a.derivesFrom d)
    (walk : Relation.ReflTransGen link c d) : c.derivesFrom d := by
  induction walk using Relation.ReflTransGen.head_induction_on with
  | refl => exact derivesFrom_refl d
  | head first _ ih => exact derives first ih

/-- Only what a class derives from is above it. -/
theorem Above.derivesFrom (h : c.Above d) : c.derivesFrom d := by
  unfold Above at h
  split at h
  · exact derivesFrom_of_walk Extends.derivesFrom h
  · exact derivesFrom_of_walk HasBase.derivesFrom h

/-- From a class above of the same kind the walk goes on as it does from there. -/
theorem Above.trans {e : ClassType} (h : c.Above d) (kind : c.isInterface = d.isInterface)
    (h' : d.Above e) : c.Above e := by
  unfold Above at h h' ⊢
  rw [← kind] at h'
  split at h
  · rw [if_pos ‹_›] at h' ⊢
    exact h.trans h'
  · rw [if_neg ‹_›] at h' ⊢
    exact h.trans h'

end ClassType

namespace Catalog

open ClassType

variable {c d : ClassType} {t : Ty} {seen : List Ty}

/-! ## Bases -/

/-- The chain of a class has all its bases, and nothing else. -/
theorem mem_baseChain_iff : ∀ {c : ClassType},
    t ∈ baseChain c ↔ ∃ d, t = .cls d ∧ Relation.ReflTransGen HasBase c d
  | ⟨i, n, none, is, f, e, ps, fs, ms, cs, xs⟩ => by
      rw [baseChain, List.mem_singleton]
      constructor
      · intro same
        exact ⟨_, same, .refl⟩
      · rintro ⟨d, rfl, walk⟩
        rcases walk.cases_head with rfl | ⟨b, link, -⟩
        · rfl
        · cases link
  | ⟨i, n, some b, is, f, e, ps, fs, ms, cs, xs⟩ => by
      rw [baseChain, List.mem_cons, mem_baseChain_iff (c := b)]
      constructor
      · rintro (same | ⟨d, same, walk⟩)
        · exact ⟨_, same, .refl⟩
        · exact ⟨d, same, .head rfl walk⟩
      · rintro ⟨d, rfl, walk⟩
        rcases walk.cases_head with rfl | ⟨b', link, walk⟩
        · exact .inl rfl
        · cases link
          exact .inr ⟨d, rfl, walk⟩

/-! ## Interfaces -/

mutual

/-- What has been seen stays seen. -/
theorem subset_visitInterface : ∀ (c : ClassType) (seen : List Ty), seen ⊆ visitInterface c seen
  | ⟨i, n, b, interfaces, f, e, ps, fs, ms, cs, xs⟩, seen => by
      rw [visitInterface]
      split
      · exact List.Subset.refl _
      · exact List.Subset.trans (List.subset_append_left _ _) (subset_visitInterfaces interfaces _)

private theorem subset_visitInterfaces : ∀ (cs : List ClassType) (seen : List Ty),
    seen ⊆ visitInterfaces cs seen
  | [], _ => List.Subset.refl _
  | c :: cs, seen => by
      rw [visitInterfaces]
      exact List.Subset.trans (subset_visitInterface c seen) (subset_visitInterfaces cs _)

end

theorem self_mem_visitInterface (c : ClassType) (seen : List Ty) :
    .cls c ∈ visitInterface c seen := by
  obtain ⟨_, _, _, interfaces, _, _, _, _, _, _, _⟩ := c
  rw [visitInterface]
  split
  · assumption
  · exact subset_visitInterfaces interfaces _ (by simp)

private theorem mem_visitInterfaces_of_mem {cs : List ClassType} (mem : c ∈ cs) (seen : List Ty) :
    .cls c ∈ visitInterfaces cs seen := by
  induction cs generalizing seen with
  | nil => cases mem
  | cons b cs ih =>
      rw [visitInterfaces]
      rcases List.mem_cons.mp mem with rfl | mem
      · exact subset_visitInterfaces cs _ (self_mem_visitInterface c seen)
      · exact ih mem _

mutual

/-- Only what links lead to is added to what has been seen. -/
private theorem reached_of_mem_visitInterface : ∀ {c : ClassType} {seen : List Ty},
    t ∈ visitInterface c seen → t ∈ seen ∨ ∃ d, t = .cls d ∧ Relation.ReflTransGen Extends c d
  | ⟨i, n, b, interfaces, f, e, ps, fs, ms, cs, xs⟩, seen, mem => by
      rw [visitInterface] at mem
      split at mem
      · exact .inl mem
      · rcases reached_of_mem_visitInterfaces mem with mem | ⟨c, link, d, same, walk⟩
        · rcases List.mem_append.mp mem with mem | mem
          · exact .inl mem
          · exact .inr ⟨_, List.mem_singleton.mp mem, .refl⟩
        · exact .inr ⟨d, same, .head link walk⟩

private theorem reached_of_mem_visitInterfaces : ∀ {cs : List ClassType} {seen : List Ty},
    t ∈ visitInterfaces cs seen →
      t ∈ seen ∨ ∃ c ∈ cs, ∃ d, t = .cls d ∧ Relation.ReflTransGen Extends c d
  | [], _, mem => .inl mem
  | c :: cs, seen, mem => by
      rw [visitInterfaces] at mem
      rcases reached_of_mem_visitInterfaces mem with mem | ⟨b, hb, reached⟩
      · rcases reached_of_mem_visitInterface mem with mem | reached
        · exact .inl mem
        · exact .inr ⟨c, List.mem_cons_self, reached⟩
      · exact .inr ⟨b, List.mem_cons_of_mem c hb, reached⟩

end

mutual

/-- With an interface that is added, all that it extends has been seen in the end. -/
private theorem visitInterface_closed : ∀ {c : ClassType} {seen : List Ty},
    .cls d ∈ visitInterface c seen →
      .cls d ∈ seen ∨ ∀ b ∈ d.interfaces, .cls b ∈ visitInterface c seen
  | ⟨i, n, b, interfaces, f, e, ps, fs, ms, cs, xs⟩, seen, mem => by
      rw [visitInterface] at mem ⊢
      split at mem
      · exact .inl mem
      · rw [if_neg ‹_›]
        rcases visitInterfaces_closed mem with mem | closed
        · rcases List.mem_append.mp mem with mem | mem
          · exact .inl mem
          · cases List.mem_singleton.mp mem
            exact .inr fun b link => mem_visitInterfaces_of_mem link _
        · exact .inr closed

private theorem visitInterfaces_closed : ∀ {cs : List ClassType} {seen : List Ty},
    .cls d ∈ visitInterfaces cs seen →
      .cls d ∈ seen ∨ ∀ b ∈ d.interfaces, .cls b ∈ visitInterfaces cs seen
  | [], _, mem => .inl mem
  | c :: cs, seen, mem => by
      rw [visitInterfaces] at mem ⊢
      rcases visitInterfaces_closed mem with mem | closed
      · rcases visitInterface_closed mem with mem | closed
        · exact .inl mem
        · exact .inr fun b link => subset_visitInterfaces cs _ (closed b link)
      · exact .inr closed

end

/-- The walk through an interface comes by all that it extends, and by nothing else. -/
theorem mem_visitInterface_iff :
    t ∈ visitInterface c [] ↔ ∃ d, t = .cls d ∧ Relation.ReflTransGen Extends c d := by
  constructor
  · intro mem
    exact (reached_of_mem_visitInterface mem).resolve_left (List.not_mem_nil)
  · rintro ⟨d, rfl, walk⟩
    induction walk with
    | refl => exact self_mem_visitInterface c []
    | tail _ link ih => exact (visitInterface_closed ih).resolve_left List.not_mem_nil _ link

/-! ## Both -/

/-- On the way up from a class there are the classes above it, and `Object`. -/
theorem mem_selfAndBases_cls :
    t ∈ selfAndBases (.cls c) ↔ t = .object ∨ ∃ d, t = .cls d ∧ c.Above d := by
  rw [selfAndBases, List.mem_append, List.mem_singleton, or_comm]
  unfold Above
  split
  · rw [mem_visitInterface_iff]
  · rw [mem_baseChain_iff]

end Catalog
end TypedExpr
