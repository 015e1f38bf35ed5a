import TypedExpr.Proofs.Keys

/-! # Runs of the record type cache

What a sequence of calls shows of a cache: one type for each shape, numbered in the order in which
they are made, and never lost. A call that is refused leaves no trace, and a limit bounds what is
made, not what is found.
-/

namespace TypedExpr.RecordCache

/-- A request for the type of a shape, made if need be or only looked up. -/
inductive Call where
  | getOrCreate (shape : List Property)
  | get (shape : List Property)

def Call.shape : Call → List Property
  | getOrCreate s | get s => s

inductive Answer where
  | found (r : RecordType)
  | missing
  | refused (e : RecordError)

def Answer.found? : Answer → Option RecordType
  | found r => some r
  | missing | refused _ => none

/-- The answer to a call, and the cache after it. -/
def answer (c : RecordCache) : Call → Answer × RecordCache
  | .getOrCreate s =>
    match c.getOrCreate s with
    | .ok (r, c') => (.found r, c')
    | .error e => (.refused e, c)
  | .get s =>
    match c.get? s with
    | some r => (.found r, c)
    | none => (.missing, c)

/-- The calls of a run with their answers. -/
abbrev Log := List (Call × Answer)

/-- The answers to a sequence of calls, and the cache after the last one. -/
def run (c : RecordCache) : List Call → Log × RecordCache
  | [] => ([], c)
  | k :: ks =>
    let (a, c') := c.answer k
    let (log, last) := c'.run ks
    ((k, a) :: log, last)

/-- The types that were handed out, each one where it first was. -/
def Log.types (log : Log) : List RecordType := (log.filterMap fun e => e.2.found?).eraseDups

/-- The log shows `r` as the answer to `k`. -/
def Log.Found (log : Log) (k : Call) (r : RecordType) : Prop := (k, Answer.found r) ∈ log

variable {c : RecordCache} {k : Call} {r : RecordType} {shape : List Property}

/-! ## One call -/

/-- The type made for a shape when there is none. -/
private def next (c : RecordCache) (shape : List Property) : RecordType := ⟨c.size + 1, shape⟩

private def extend (c : RecordCache) (shape : List Property) : RecordCache :=
  { c with types := c.types ++ [c.next shape] }

/-- What can come of a call, and when. -/
private inductive Step (c : RecordCache) : Call → Answer → RecordCache → Prop
  | again {s r} (h : (shapeKeys s).Nodup) (hr : c.get? s = some r) :
      Step c (.getOrCreate s) (.found r) c
  | made {s} (h : (shapeKeys s).Nodup) (hs : c.get? s = none) (room : c.hasRoom) :
      Step c (.getOrCreate s) (.found (c.next s)) (c.extend s)
  | duplicate {s e} (h : ¬ (shapeKeys s).Nodup) : Step c (.getOrCreate s) (.refused e) c
  | full {s e} (h : (shapeKeys s).Nodup) (hs : c.get? s = none) (room : c.hasRoom = false) :
      Step c (.getOrCreate s) (.refused e) c
  | found {s r} (hr : c.get? s = some r) : Step c (.get s) (.found r) c
  | missing {s} (hs : c.get? s = none) : Step c (.get s) .missing c

private theorem answer_step {a : Answer} {c' : RecordCache} (h : c.answer k = (a, c')) :
    Step c k a c' := by
  cases k with
  | get s =>
      cases hs : c.get? s with
      | some r =>
          simp only [answer, hs, Prod.mk.injEq] at h
          obtain ⟨rfl, rfl⟩ := h
          exact .found hs
      | none =>
          simp only [answer, hs, Prod.mk.injEq] at h
          obtain ⟨rfl, rfl⟩ := h
          exact .missing hs
  | getOrCreate s =>
      cases dup : duplicateName? s with
      | some name =>
          simp only [answer, getOrCreate, dup, Prod.mk.injEq] at h
          obtain ⟨rfl, rfl⟩ := h
          exact .duplicate (by simp [← duplicateName?_eq_none_iff, dup])
      | none =>
          have distinct := duplicateName?_eq_none_iff.mp dup
          cases hs : c.get? s with
          | some r =>
              simp only [answer, getOrCreate, dup, hs, Prod.mk.injEq] at h
              obtain ⟨rfl, rfl⟩ := h
              exact .again distinct hs
          | none =>
              cases room : c.hasRoom <;>
                simp only [answer, getOrCreate, dup, hs, room, if_true, Bool.false_eq_true,
                  if_false, Prod.mk.injEq] at h
              · obtain ⟨rfl, rfl⟩ := h
                exact .full distinct hs room
              · obtain ⟨rfl, rfl⟩ := h
                exact .made distinct hs room

private theorem get?_eq_none_iff : c.get? shape = none ↔ ∀ r ∈ c.types, r.properties ≠ shape := by
  simp [get?]

/-- Where each shape has one type, looking up a shape finds it. -/
private theorem get?_eq_some_iff (one : (c.types.map (·.properties)).Nodup) :
    c.get? shape = some r ↔ r ∈ c.types ∧ r.properties = shape := by
  constructor
  · intro h
    exact ⟨List.mem_of_find?_eq_some h, by simpa using List.find?_some h⟩
  · rintro ⟨mem, rfl⟩
    cases h : c.get? r.properties with
    | none => exact absurd rfl (get?_eq_none_iff.mp h r mem)
    | some r' =>
        have same : r'.properties = r.properties := by simpa using List.find?_some h
        rw [List.inj_on_of_nodup_map one (List.mem_of_find?_eq_some h) mem same]

private theorem hasRoom_eq_false_iff :
    c.hasRoom = false ↔ ∃ l, c.limit = some l ∧ l ≤ c.size := by
  unfold hasRoom
  cases c.limit <;> simp

/-! ## What every step keeps -/

/-- The cache holds what the log has shown of it. -/
private structure Kept (limit : Option Nat) (log : Log) (c : RecordCache) : Prop where
  limited : c.limit = limit
  types : c.types = log.types
  ids : c.types.map (·.id) = List.range' 1 c.size
  one : (c.types.map (·.properties)).Nodup
  distinct : ∀ r ∈ c.types, (shapeKeys r.properties).Nodup
  made : ∀ r ∈ c.types, log.Found (.getOrCreate r.properties) r
  found : ∀ k r, log.Found k r → r ∈ c.types ∧ r.properties = k.shape
  bounded : ∀ l, limit = some l → c.size ≤ l

private theorem types_concat (log : Log) (k : Call) (a : Answer) :
    Log.types (log ++ [(k, a)]) =
      match a.found? with
      | none => log.types
      | some r => if r ∈ log.types then log.types else log.types ++ [r] := by
  simp only [Log.types, List.filterMap_append, List.eraseDups_append, List.mem_eraseDups]
  cases h : a.found? with
  | none => simp [h]
  | some r =>
      by_cases mem : r ∈ log.filterMap fun e => e.2.found?
      · simp [h, mem, List.removeAll]
      · simp [h, mem, List.removeAll, List.eraseDups_cons]

private theorem Kept.start (limit : Option Nat) : Kept limit [] (empty limit) where
  limited := rfl
  types := by simp [Log.types, empty]
  ids := rfl
  one := List.nodup_nil
  distinct := by simp [empty]
  made := by simp [empty]
  found := by simp [Log.Found]
  bounded := by simp [empty, size]

variable {limit : Option Nat} {log : Log}

/-- A call that changes nothing keeps the books, if a type that it finds is one of the cache. -/
private theorem Kept.log_concat (h : Kept limit log c) {a : Answer}
    (ha : ∀ r, a.found? = some r → r ∈ c.types ∧ r.properties = k.shape) :
    Kept limit (log ++ [(k, a)]) c where
  limited := h.limited
  types := by
    rw [types_concat, h.types]
    split
    · rfl
    · rename_i r hr
      rw [if_pos (h.types ▸ (ha r hr).1)]
  ids := h.ids
  one := h.one
  distinct := h.distinct
  made r hr := List.mem_append_left _ (h.made r hr)
  found k' r hr := by
    rcases List.mem_append.mp hr with hr | hr
    · exact h.found k' r hr
    · obtain ⟨rfl, rfl⟩ : k' = k ∧ .found r = a := by simpa using hr
      exact ha r rfl
  bounded := h.bounded

private theorem Kept.extend (h : Kept limit log c) {s : List Property}
    (distinct : (shapeKeys s).Nodup) (hs : c.get? s = none) (room : c.hasRoom) :
    Kept limit (log ++ [(.getOrCreate s, .found (c.next s))]) (c.extend s) := by
  have fresh : c.next s ∉ log.types := by
    intro mem
    exact get?_eq_none_iff.mp hs _ (h.types ▸ mem) rfl
  have types : (c.extend s).types = c.types ++ [c.next s] := rfl
  exact {
    limited := h.limited
    types := by
      rw [types_concat, types, h.types]
      exact (if_neg fresh).symm
    ids := by
      simp [types, size, h.ids, next, List.range'_concat, Nat.add_comm]
    one := by
      simp only [types, List.map_append, List.map_cons, List.map_nil]
      refine h.one.append (List.nodup_singleton _) ?_
      simpa [next] using get?_eq_none_iff.mp hs
    distinct := by
      simp only [types, List.mem_append, List.mem_singleton]
      rintro r (hr | rfl)
      · exact h.distinct r hr
      · exact distinct
    made := by
      simp only [types, List.mem_append, List.mem_singleton]
      rintro r (hr | rfl)
      · exact List.mem_append_left _ (h.made r hr)
      · exact List.mem_append_right _ (List.mem_singleton_self _)
    found := by
      intro k r hr
      rcases List.mem_append.mp hr with hr | hr
      · exact (h.found k r hr).imp_left (List.mem_append_left _)
      · obtain ⟨rfl, rfl⟩ : k = .getOrCreate s ∧ r = c.next s := by simpa using hr
        exact ⟨List.mem_append_right _ (List.mem_singleton_self _), rfl⟩
    bounded := by
      intro l hl
      have room : ¬ l ≤ c.size := by
        intro full
        simp [hasRoom_eq_false_iff.mpr ⟨l, h.limited.trans hl, full⟩] at room
      simp only [size, types, List.length_append, List.length_singleton] at room ⊢
      omega }

private theorem Kept.answer (h : Kept limit log c) (k : Call) :
    Kept limit (log ++ [(k, (c.answer k).1)]) (c.answer k).2 := by
  generalize hk : c.answer k = answered
  obtain ⟨a, c'⟩ := answered
  cases answer_step hk with
  | made distinct hs room => exact h.extend distinct hs room
  | again _ hr | found hr =>
      refine h.log_concat ?_
      rintro r ⟨⟩
      exact (get?_eq_some_iff h.one).mp hr
  | duplicate | full | missing => exact h.log_concat (by simp [Answer.found?])

private theorem Kept.run (h : Kept limit log c) (ks : List Call) :
    Kept limit (log ++ (c.run ks).1) (c.run ks).2 := by
  induction ks generalizing log c with
  | nil => simpa [RecordCache.run] using h
  | cons k ks ih => simpa [RecordCache.run] using ih (h.answer k)

/-! ## Whole runs -/

/-- What a log of calls, the first one to a cache without types, shows of the cache after it. -/
structure Orderly (limit : Option Nat) (log : Log) (c : RecordCache) : Prop where
  /-- Two answers are the same type just when the two shapes are the same. -/
  same_iff : ∀ {k k' r r'}, log.Found k r → log.Found k' r' → (r = r' ↔ k.shape = k'.shape)
  /-- The types have the numbers from one on, in the order in which they were first handed out. -/
  numbered : log.types.map (·.id) = List.range' 1 c.size
  counted : c.size = log.types.length
  /-- A look-up finds what has been made, nothing else. -/
  get_iff : ∀ {shape r}, (c.answer (.get shape)).1 = .found r ↔ log.Found (.getOrCreate shape) r
  get_makes_none : ∀ shape, (c.answer (.get shape)).2 = c
  /-- Whatever calls follow, a shape goes on to have its type. -/
  kept : ∀ {k r}, log.Found k r → ∀ later : List Call,
    let last := (c.run later).2
    last.answer (.get k.shape) = (.found r, last) ∧
      last.answer (.getOrCreate k.shape) = (.found r, last)
  /-- A shape is refused when it has a name twice, or when it is new and there is no room. -/
  refused_iff : ∀ shape, (∃ e, (c.answer (.getOrCreate shape)).1 = .refused e) ↔
    ¬ (shapeKeys shape).Nodup ∨
      (∀ r, ¬ log.Found (.getOrCreate shape) r) ∧ ∃ l, limit = some l ∧ l ≤ c.size
  /-- Calls that follow a refused one are answered as if it had not been made. -/
  traceless : ∀ {k e}, (c.answer k).1 = .refused e → ∀ later : List Call,
    c.run (k :: later) = ((k, .refused e) :: (c.run later).1, (c.run later).2)
  bounded : ∀ l, limit = some l → c.size ≤ l

private theorem Kept.get?_iff (h : Kept limit log c) :
    c.get? shape = some r ↔ log.Found (.getOrCreate shape) r := by
  rw [get?_eq_some_iff h.one]
  constructor
  · rintro ⟨mem, rfl⟩
    exact h.made r mem
  · exact h.found _ r

private theorem answer_get (c : RecordCache) (shape : List Property) :
    c.answer (.get shape) = ((c.get? shape).elim .missing .found, c) := by
  cases h : c.get? shape <;> simp [answer, h]

private theorem answer_refused {e : RecordError} (h : (c.answer k).1 = .refused e) :
    c.answer k = (.refused e, c) := by
  generalize hk : c.answer k = answered at h
  obtain ⟨a, c'⟩ := answered
  cases h
  cases answer_step hk <;> rfl

/-- A type that a log shows is found by both kinds of calls. -/
private theorem Kept.answers (h : Kept limit log c) (hr : log.Found k r) :
    c.answer (.get k.shape) = (.found r, c) ∧ c.answer (.getOrCreate k.shape) = (.found r, c) := by
  have found : c.get? k.shape = some r := (get?_eq_some_iff h.one).mpr (h.found k r hr)
  have distinct : duplicateName? k.shape = none := by
    obtain ⟨mem, shape⟩ := h.found k r hr
    exact duplicateName?_eq_none_iff.mpr (shape ▸ h.distinct r mem)
  simp [RecordCache.answer, getOrCreate, found, distinct]

private theorem Kept.orderly (h : Kept limit log c) : Orderly limit log c where
  same_iff {k k' r r'} hr hr' := by
    obtain ⟨mem, shape⟩ := h.found k r hr
    obtain ⟨mem', shape'⟩ := h.found k' r' hr'
    rw [← shape, ← shape']
    exact ⟨congrArg _, List.inj_on_of_nodup_map h.one mem mem'⟩
  numbered := h.types ▸ h.ids
  counted := congrArg List.length h.types
  get_iff {shape r} := by
    rw [← h.get?_iff, answer_get]
    cases c.get? shape <;> simp
  get_makes_none shape := by rw [answer_get]
  kept hr later := (h.run later).answers (List.mem_append_left _ hr)
  refused_iff shape := by
    rw [← h.limited, ← hasRoom_eq_false_iff]
    generalize hk : c.answer (.getOrCreate shape) = answered
    obtain ⟨a, c'⟩ := answered
    cases answer_step hk with
    | again distinct hr => simpa [distinct] using fun new => absurd (h.get?_iff.mp hr) (new _)
    | made distinct _ room => simp [distinct, room]
    | duplicate twice => simp [twice]
    | full _ new room =>
        have none : ∀ r, ¬ log.Found (.getOrCreate shape) r := by
          intro r hr
          rw [h.get?_iff.mpr hr] at new
          cases new
        simpa [room] using .inr none
  traceless hk later := by
    simp [RecordCache.run, answer_refused hk]
  bounded := h.bounded

end TypedExpr.RecordCache
