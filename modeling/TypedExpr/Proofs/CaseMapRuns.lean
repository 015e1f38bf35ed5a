import TypedExpr.Proofs.Keys

/-! # Runs of insertions

What a sequence of insertions leaves in a map of names: an entry for each name that was new when it
came, where names that differ only in case are one. All look-ups of a name agree on its entry. The
same answers come from a map that keeps an index of the places beside the entries: index and entries
stay in step.
-/

namespace TypedExpr

variable {α : Type}

/-- Entries in the order in which they were added, with an index of their places: the keys of the
index are the names in small letters. -/
structure IndexedMap (α : Type) where
  entries : Array (String × α)
  index : Std.HashMap String Nat

namespace IndexedMap

def empty : IndexedMap α := ⟨#[], ∅⟩

/-- Whether the entry is taken in, and the map after it. -/
def tryInsert (m : IndexedMap α) (e : String × α) : Bool × IndexedMap α :=
  let key := Text.toLowercase e.1
  if m.index.contains key then (false, m)
  else (true, ⟨m.entries.push e, m.index.insert key m.entries.size⟩)

def position? (m : IndexedMap α) (key : String) : Option Nat := m.index[Text.toLowercase key]?

def entry? (m : IndexedMap α) (key : String) : Option (String × α) :=
  (m.position? key).bind fun i => m.entries[i]?

def get? (m : IndexedMap α) (key : String) : Option α := (m.entry? key).map (·.2)

def contains (m : IndexedMap α) (key : String) : Bool := m.index.contains (Text.toLowercase key)

def size (m : IndexedMap α) : Nat := m.entries.size

end IndexedMap

namespace CaseMap

/-- Whether the entry is taken in, and the map after it. -/
def tryInsert (m : CaseMap α) (e : String × α) : Bool × CaseMap α :=
  match m.insert? e.1 e.2 with
  | some m' => (true, m')
  | none => (false, m)

/-- Insertions with their answers. -/
abbrev Log (α : Type) := List ((String × α) × Bool)

/-- The entries that were taken in. -/
def Log.taken (log : Log α) : List (String × α) := (log.filter (·.2)).map (·.1)

/-- The answers to a sequence of insertions, and the map after the last one. -/
def run {σ : Type} (insert : σ → String × α → Bool × σ) (m : σ) : List (String × α) → Log α × σ
  | [] => ([], m)
  | e :: es =>
    let (taken, m') := insert m e
    let (log, last) := run insert m' es
    ((e, taken) :: log, last)

/-- All look-ups of a name answer with this entry and its place, or none of them with any. -/
structure LooksUp (m : CaseMap α) (key : String) (found : Option (Nat × String × α)) : Prop where
  position : m.position? key = found.map (·.1)
  entry : m.entry? key = found.map (·.2)
  value : m.get? key = found.map (·.2.2)
  contains : m.contains key = found.isSome

/-- What a log of insertions, the first one into an empty map, shows of the map after it. -/
structure Orderly (log : Log α) (m : CaseMap α) : Prop where
  /-- The entries are those that were taken in, in order and with their own spelling. -/
  entries : m.entries = log.taken
  /-- An entry is refused just when one before it was taken in under the same name. -/
  refused_iff : ∀ {before e answer after}, log = before ++ (e, answer) :: after →
    (answer = false ↔
      ∃ e' ∈ Log.taken before, Text.toLowercase e'.1 = Text.toLowercase e.1)
  /-- A further entry that is refused changes nothing. -/
  traceless : ∀ e, (m.tryInsert e).1 = false → (m.tryInsert e).2 = m
  /-- All look-ups of a name find its only entry, if there is one. -/
  lookup : ∀ key, ∃ found, m.LooksUp key found ∧ ∀ i e, found = some (i, e) ↔
    m.entries[i]? = some e ∧ Text.toLowercase e.1 = Text.toLowercase key
  counted : m.size = log.taken.length
  distinct : (m.entries.map fun e => Text.toLowercase e.1).Nodup

variable {m : CaseMap α} {e : String × α} {log : Log α} {key : String} {i : Nat}

/-! ## One insertion -/

/-- What can come of an insertion, and when. -/
private inductive Step (m : CaseMap α) (e : String × α) : Bool → CaseMap α → Prop
  | refused (h : Text.toLowercase e.1 ∈ m.keys) : Step m e false m
  | taken (h : Text.toLowercase e.1 ∉ m.keys) : Step m e true ⟨m.entries ++ [e]⟩

private theorem tryInsert_step {answer : Bool} {m' : CaseMap α} (h : m.tryInsert e = (answer, m')) :
    Step m e answer m' := by
  by_cases known : Text.toLowercase e.1 ∈ m.keys
  · rw [tryInsert, insert?_eq_none_iff.mpr known] at h
    cases h
    exact .refused known
  · rw [tryInsert, insert?_of_notMem e.2 known] at h
    cases h
    exact .taken known

private theorem mem_keys_iff : key ∈ m.keys ↔ ∃ e ∈ m.entries, Text.toLowercase e.1 = key :=
  List.mem_map

/-- The place of a name, among the keys. -/
theorem position?_eq_idxOf? (m : CaseMap α) (key : String) :
    m.position? key = m.keys.idxOf? (Text.toLowercase key) := by
  rw [keys, List.idxOf?, List.findIdx?_map]
  rfl

theorem entry?_eq_bind (m : CaseMap α) (key : String) :
    m.entry? key = (m.position? key).bind fun i => m.entries[i]? :=
  List.find?_eq_bind_findIdx?_getElem?

/-- Where no key is taken twice, a name stands at one place only. -/
theorem position?_eq_some_iff (one : m.keys.Nodup) : m.position? key = some i ↔
    ∃ e, m.entries[i]? = some e ∧ Text.toLowercase e.1 = Text.toLowercase key := by
  rw [position?_eq_idxOf?, List.idxOf?_eq_some_iff]
  constructor
  · rintro ⟨inside, same, -⟩
    have inside' : i < m.entries.length := by simpa [keys] using inside
    exact ⟨m.entries[i], List.getElem?_eq_getElem inside', by simpa [keys] using same⟩
  · rintro ⟨e, place, same⟩
    obtain ⟨inside, rfl⟩ := List.getElem?_eq_some_iff.mp place
    have inside' : i < m.keys.length := by simpa [keys] using inside
    have here : m.keys[i] = Text.toLowercase key := by simpa [keys] using same
    refine ⟨inside', here, fun j before again => ?_⟩
    have same' := (List.Nodup.getElem_inj_iff one).mp (again.trans here.symm)
    omega

theorem contains_eq_isSome (m : CaseMap α) (key : String) :
    m.contains key = (m.position? key).isSome := by
  rw [contains, entry?_eq_bind]
  cases h : m.position? key with
  | none => rfl
  | some i =>
      obtain ⟨inside, -⟩ := List.findIdx?_eq_some_iff_getElem.mp h
      simp [inside]

/-- The look-ups of a name agree, and the place and entry that they find are the only ones. -/
theorem exists_looksUp (one : m.keys.Nodup) (key : String) :
    ∃ found, m.LooksUp key found ∧ ∀ i e, found = some (i, e) ↔
      m.entries[i]? = some e ∧ Text.toLowercase e.1 = Text.toLowercase key := by
  cases place : m.position? key with
  | none =>
      have missing : m.entry? key = none := by rw [entry?_eq_bind, place, Option.bind_none]
      refine ⟨none, ⟨place, missing, ?_, ?_⟩, fun i e => ?_⟩
      · rw [get?, missing]
        rfl
      · rw [contains_eq_isSome, place]
        rfl
      · constructor
        · intro found
          cases found
        · intro stands
          have found := (position?_eq_some_iff one).mpr ⟨e, stands⟩
          rw [place] at found
          cases found
  | some i =>
      obtain ⟨e, stands, same⟩ := (position?_eq_some_iff one).mp place
      have found : m.entry? key = some e := by rw [entry?_eq_bind, place, Option.bind_some, stands]
      refine ⟨some (i, e), ⟨place, found, ?_, ?_⟩, fun j e' => ?_⟩
      · rw [get?, found]
        rfl
      · rw [contains_eq_isSome, place]
        rfl
      · constructor
        · rintro ⟨⟩
          exact ⟨stands, same⟩
        · intro stands'
          have other := (position?_eq_some_iff one).mpr ⟨e', stands'⟩
          obtain rfl : i = j := Option.some.inj (place.symm.trans other)
          rw [stands] at stands'
          rw [Option.some.inj stands'.1]

/-! ## What every insertion keeps -/

/-- The map holds what the log has shown of it. -/
private structure Kept (log : Log α) (m : CaseMap α) : Prop where
  entries : m.entries = log.taken
  one : m.keys.Nodup
  refused_iff : ∀ {before e answer after}, log = before ++ (e, answer) :: after →
    (answer = false ↔
      ∃ e' ∈ Log.taken before, Text.toLowercase e'.1 = Text.toLowercase e.1)

private theorem taken_concat (log : Log α) (e : String × α) (answer : Bool) :
    Log.taken (log ++ [(e, answer)]) = log.taken ++ if answer then [e] else [] := by
  cases answer <;> simp [Log.taken]

private theorem Kept.tryInsert (h : Kept log m) (e : String × α) :
    Kept (log ++ [(e, (m.tryInsert e).1)]) (m.tryInsert e).2 := by
  generalize inserted : m.tryInsert e = answered
  obtain ⟨answer, m'⟩ := answered
  have step := tryInsert_step inserted
  have answered_iff : answer = false ↔
      ∃ e' ∈ Log.taken log, Text.toLowercase e'.1 = Text.toLowercase e.1 := by
    rw [← h.entries, ← mem_keys_iff]
    cases step with
    | refused known => exact iff_of_true rfl known
    | taken new => exact iff_of_false nofun new
  refine ⟨?_, ?_, fun {before e' answer' after} split => ?_⟩
  · rw [taken_concat, ← h.entries]
    cases step with
    | refused => exact (List.append_nil _).symm
    | taken => rfl
  · cases step with
    | refused => exact h.one
    | taken new =>
        rw [keys_concat]
        exact h.one.append (List.nodup_singleton _) (by simpa using new)
  · -- the last call of the log is this one, and those before it are of the log so far
    rcases List.eq_nil_or_concat after with rfl | ⟨after, last, rfl⟩
    · obtain ⟨rfl, same⟩ := List.append_inj' split rfl
      cases same
      exact answered_iff
    · rw [List.concat_eq_append, ← List.cons_append, ← List.append_assoc] at split
      exact h.refused_iff (List.append_inj' split rfl).1

private theorem Kept.run (h : Kept log m) (es : List (String × α)) :
    Kept (log ++ (run CaseMap.tryInsert m es).1) (run CaseMap.tryInsert m es).2 := by
  induction es generalizing log m with
  | nil => simpa [CaseMap.run] using h
  | cons e es ih => simpa [CaseMap.run] using ih (h.tryInsert e)

private theorem Kept.start : Kept [] (empty : CaseMap α) where
  entries := rfl
  one := List.nodup_nil
  refused_iff split := by simp at split

private theorem Kept.orderly (h : Kept log m) : Orderly log m where
  entries := h.entries
  refused_iff := h.refused_iff
  traceless e refused := by
    generalize inserted : m.tryInsert e = answered at refused
    obtain ⟨answer, m'⟩ := answered
    cases refused
    cases tryInsert_step inserted
    rfl
  lookup := exists_looksUp h.one
  counted := congrArg List.length h.entries
  distinct := h.one

/-- The calls of a log are those of the run. -/
theorem calls_run {σ : Type} (insert : σ → String × α → Bool × σ) (m : σ)
    (es : List (String × α)) : (run insert m es).1.map (·.1) = es := by
  induction es generalizing m with
  | nil => rfl
  | cons e es ih => exact congrArg (e :: ·) (ih _)

/-! ## The index -/

end CaseMap

namespace IndexedMap

open CaseMap (run)

variable {i : IndexedMap α} {m : CaseMap α}

/-- Both maps show the same entries, and all look-ups of a name answer alike. -/
structure Shows (i : IndexedMap α) (m : CaseMap α) : Prop where
  entries : i.entries.toList = m.entries
  size : i.size = m.size
  position : ∀ key, i.position? key = m.position? key
  entry : ∀ key, i.entry? key = m.entry? key
  value : ∀ key, i.get? key = m.get? key
  contains : ∀ key, i.contains key = m.contains key

/-- The index has the place of each key. -/
private structure InStep (i : IndexedMap α) (m : CaseMap α) : Prop where
  entries : i.entries.toList = m.entries
  index : ∀ key : String, i.index[key]? = m.keys.idxOf? key

private theorem InStep.size (h : InStep i m) : i.entries.size = m.keys.length := by
  rw [CaseMap.keys, List.length_map, ← h.entries, Array.length_toList]

private theorem idxOf?_concat (keys : List String) (new key : String) :
    (keys ++ [new]).idxOf? key =
      (keys.idxOf? key).or (if new == key then some keys.length else none) := by
  show (keys ++ [new]).findIdx? (· == key) = (keys.findIdx? (· == key)).or _
  rw [List.findIdx?_append, List.findIdx?_singleton]
  split <;> simp

private theorem InStep.tryInsert (h : InStep i m) (e : String × α) :
    (i.tryInsert e).1 = (m.tryInsert e).1 ∧ InStep (i.tryInsert e).2 (m.tryInsert e).2 := by
  have known : i.index.contains (Text.toLowercase e.1) ↔ Text.toLowercase e.1 ∈ m.keys := by
    rw [Std.HashMap.contains_eq_isSome_getElem?, h.index, List.isSome_idxOf?]
  generalize inserted : m.tryInsert e = answered
  obtain ⟨answer, m'⟩ := answered
  cases CaseMap.tryInsert_step inserted with
  | refused old =>
      have refused : i.tryInsert e = (false, i) := if_pos (known.mpr old)
      rw [refused]
      exact ⟨rfl, h⟩
  | taken new =>
      have taken : i.tryInsert e =
          (true, ⟨i.entries.push e, i.index.insert (Text.toLowercase e.1) i.entries.size⟩) :=
        if_neg (mt known.mp new)
      rw [taken]
      refine ⟨rfl, by simp [h.entries], fun key => ?_⟩
      rw [CaseMap.keys_concat, Std.HashMap.getElem?_insert, idxOf?_concat, h.index, h.size]
      by_cases here : Text.toLowercase e.1 = key
      · subst here
        have free : m.keys.idxOf? (Text.toLowercase e.1) = none := List.idxOf?_eq_none_iff.mpr new
        simp [free]
      · simp [here]

private theorem InStep.run (h : InStep i m) (es : List (String × α)) :
    (run IndexedMap.tryInsert i es).1 = (run CaseMap.tryInsert m es).1 ∧
      InStep (run IndexedMap.tryInsert i es).2 (run CaseMap.tryInsert m es).2 := by
  induction es generalizing i m with
  | nil => exact ⟨rfl, h⟩
  | cons e es ih =>
      obtain ⟨answer, h⟩ := h.tryInsert e
      obtain ⟨answers, h⟩ := ih h
      refine ⟨?_, h⟩
      simp only [CaseMap.run, answer, answers]

private theorem InStep.shows (h : InStep i m) : i.Shows m := by
  have position : ∀ key, i.position? key = m.position? key := fun key => by
    rw [position?, h.index, CaseMap.position?_eq_idxOf?]
  have entry : ∀ key, i.entry? key = m.entry? key := fun key => by
    have found : i.entry? key = (i.position? key).bind fun n => i.entries[n]? := rfl
    rw [found, position, CaseMap.entry?_eq_bind, ← h.entries]
    simp
  refine ⟨h.entries, ?_, position, entry, fun key => ?_, fun key => ?_⟩
  · rw [IndexedMap.size, CaseMap.size, ← h.entries, Array.length_toList]
  · rw [get?, entry, CaseMap.get?]
  · rw [contains, Std.HashMap.contains_eq_isSome_getElem?, CaseMap.contains_eq_isSome,
      ← position, position?]

private theorem InStep.start : InStep (empty : IndexedMap α) CaseMap.empty where
  entries := rfl
  index _ := Std.HashMap.getElem?_empty

end IndexedMap

/-- After all insertions into an empty map, the entries are those that were taken in, one for each
name, and every look-up of a name finds its entry. A map with an index of the places answers every
insertion and every look-up in the same way. -/
theorem CaseMap.insertions_orderly (es : List (String × α)) :
    (run CaseMap.tryInsert empty es).1.map (·.1) = es ∧
      Orderly (run CaseMap.tryInsert empty es).1 (run CaseMap.tryInsert empty es).2 ∧
      (run IndexedMap.tryInsert .empty es).1 = (run CaseMap.tryInsert empty es).1 ∧
      (run IndexedMap.tryInsert .empty es).2.Shows (run CaseMap.tryInsert empty es).2 := by
  obtain ⟨answers, indexed⟩ := IndexedMap.InStep.start.run es
  exact ⟨calls_run _ _ es, (Kept.start.run es).orderly, answers, indexed.shows⟩

end TypedExpr
