import TypedExpr.RecordCache
import Mathlib.Data.List.Nodup

/-! # Names that differ at most in case

A map has one key for all spellings of a name: the name in small letters. A key is taken at most
once, and what has been put under it is found under each of its spellings.
-/

namespace TypedExpr

namespace CaseMap

variable {α : Type} {m : CaseMap α} {name : String}

/-- The keys of a map in order, in small letters. -/
def keys (m : CaseMap α) : List String := m.entries.map fun e => Text.toLowercase e.1

theorem contains_iff : m.contains name ↔ Text.toLowercase name ∈ m.keys := by
  simp [contains, entry?, sameKey, keys]

theorem insert?_eq_none_iff {a : α} :
    m.insert? name a = none ↔ Text.toLowercase name ∈ m.keys := by
  rw [← contains_iff]
  unfold insert?
  split <;> simp_all

/-- An entry under a key that is free comes last. -/
theorem insert?_of_notMem (a : α) (h : Text.toLowercase name ∉ m.keys) :
    m.insert? name a = some ⟨m.entries ++ [(name, a)]⟩ := by
  rw [← contains_iff] at h
  exact if_neg h

theorem insert?_eq_some {a : α} {m' : CaseMap α} (h : m.insert? name a = some m') :
    Text.toLowercase name ∉ m.keys ∧ m' = ⟨m.entries ++ [(name, a)]⟩ := by
  have free : Text.toLowercase name ∉ m.keys := by
    intro taken
    rw [insert?_eq_none_iff.mpr taken] at h
    cases h
  rw [insert?_of_notMem a free] at h
  cases h
  exact ⟨free, rfl⟩

@[simp] theorem keys_concat (a : α) :
    (⟨m.entries ++ [(name, a)]⟩ : CaseMap α).keys = m.keys ++ [Text.toLowercase name] := by
  simp [keys]

/-- Where no key is taken twice, an entry is found by its name. -/
theorem get?_of_mem {a : α} (hm : m.keys.Nodup) (h : (name, a) ∈ m.entries) :
    m.get? name = some a := by
  obtain ⟨entries⟩ := m
  induction entries with
  | nil => cases h
  | cons e rest ih =>
      simp only [keys, List.map_cons, List.nodup_cons] at hm
      rcases List.mem_cons.mp h with rfl | h
      · simp [get?, entry?, sameKey]
      · have other : Text.toLowercase e.1 ≠ Text.toLowercase name := by
          intro same
          exact hm.1 (List.mem_map.mpr ⟨_, h, same.symm⟩)
        have found := ih hm.2 h
        simp only [get?, entry?, sameKey] at found ⊢
        rwa [List.find?_cons_of_neg (by simpa using other)]

/-! ## Maps made of lists -/

theorem keys_nodup_insert {a : α} (h : m.keys.Nodup) :
    (m.insert name a).keys.Nodup := by
  unfold insert
  cases inserted : m.insert? name a with
  | none => exact h
  | some m' =>
      obtain ⟨free, rfl⟩ := insert?_eq_some inserted
      simpa [List.nodup_append] using ⟨h, fun key hkey same => free (same ▸ hkey)⟩

theorem mem_insert {a : α} {e : String × α}
    (h : e ∈ (m.insert name a).entries) : e ∈ m.entries ∨ e = (name, a) := by
  unfold insert at h
  cases inserted : m.insert? name a with
  | none => exact .inl (by simpa [inserted] using h)
  | some m' =>
      obtain ⟨-, rfl⟩ := insert?_eq_some inserted
      simpa [inserted] using h

/-- Adding entries one by one keeps what holds of a map under each single addition. -/
private theorem foldl_insert_induction {P : CaseMap α → Prop} {entries : List (String × α)}
    (start : P m)
    (step : ∀ (m : CaseMap α) e, e ∈ entries → P m → P (m.insert e.1 e.2)) :
    P (entries.foldl (fun (m : CaseMap α) e => m.insert e.1 e.2) m) := by
  induction entries generalizing m with
  | nil => exact start
  | cons e rest ih =>
      exact ih (step m e List.mem_cons_self start) fun m e he =>
        step m e (List.mem_cons_of_mem _ he)

theorem keys_nodup_ofList (entries : List (String × α)) : (ofList entries).keys.Nodup :=
  foldl_insert_induction (P := fun m => m.keys.Nodup) List.nodup_nil
    fun _ _ _ => keys_nodup_insert

theorem mem_of_mem_ofList {entries : List (String × α)} {e : String × α}
    (h : e ∈ (ofList entries).entries) : e ∈ entries := by
  refine foldl_insert_induction (P := fun m => ∀ e ∈ m.entries, e ∈ entries) (by simp [empty])
    (fun m e' he' known e he => ?_) e h
  rcases mem_insert he with he | rfl
  · exact known e he
  · exact he'

end CaseMap

namespace RecordCache

/-- The names of a shape in small letters, by which its properties are told apart. -/
def shapeKeys (shape : List Property) : List String := shape.map fun p => Text.toLowercase p.name

private theorem go_eq_none_iff {seen : CaseMap Unit} {shape : List Property} :
    duplicateName?.go seen shape = none ↔
      (shapeKeys shape).Nodup ∧ ∀ key ∈ shapeKeys shape, key ∉ seen.keys := by
  induction shape generalizing seen with
  | nil => simp [duplicateName?.go, shapeKeys]
  | cons p ps ih =>
      unfold duplicateName?.go
      split
      · rename_i taken
        have taken := CaseMap.insert?_eq_none_iff.mp taken
        simp only [reduceCtorEq, false_iff, not_and]
        intro _ free
        exact free _ List.mem_cons_self taken
      · rename_i seen' inserted
        obtain ⟨free, rfl⟩ := CaseMap.insert?_eq_some inserted
        rw [ih, CaseMap.keys_concat]
        simp only [shapeKeys, List.map_cons, List.nodup_cons, List.mem_cons, List.mem_append,
          List.not_mem_nil, or_false, not_or]
        constructor
        · rintro ⟨distinct, fresh⟩
          refine ⟨⟨fun again => (fresh _ again).2 rfl, distinct⟩, ?_⟩
          rintro key (rfl | later)
          · exact free
          · exact (fresh key later).1
        · rintro ⟨⟨once, distinct⟩, fresh⟩
          refine ⟨distinct, fun key later => ⟨fresh key (.inr later), ?_⟩⟩
          rintro rfl
          exact once later

/-- No name is a duplicate just when all names differ in more than case. -/
theorem duplicateName?_eq_none_iff {shape : List Property} :
    duplicateName? shape = none ↔ (shapeKeys shape).Nodup := by
  unfold duplicateName?
  rw [go_eq_none_iff]
  simp [CaseMap.empty, CaseMap.keys]

end RecordCache
end TypedExpr
