import TypedExpr.Proofs.Derivation
import TypedExpr.Source

/-! # What names mean at the start of a text

Names mean parameters, externals, and what the table of the last external holds, and nothing else.
Bare members belong to the only parameter, if it has no name; and the first number that is free is
above those of all parameters.
-/

namespace TypedExpr

theorem Parameter.id_lt_bound {params : List Parameter} {p : Parameter} (h : p ∈ params) :
    p.id < bound params := by
  have grows : ∀ (ps : List Parameter) (n : Nat),
      n ≤ ps.foldl (fun n q => max n (q.id + 1)) n ∧
        ∀ q ∈ ps, q.id < ps.foldl (fun n q => max n (q.id + 1)) n := by
    intro ps
    induction ps with
    | nil => simp
    | cons q ps ih =>
        intro n
        obtain ⟨above, below⟩ := ih (max n (q.id + 1))
        refine ⟨Nat.le_trans (Nat.le_max_left _ _) above, ?_⟩
        intro r hr
        rcases List.mem_cons.mp hr with rfl | hr
        · exact Nat.lt_of_lt_of_le (Nat.lt_succ_self _) (Nat.le_trans (Nat.le_max_right _ _) above)
        · exact below r hr
  exact (grows params 0).2 p h

namespace Source.Env

/-- Everything that a name can mean satisfies `S`. -/
structure Means (S : External → Prop) (env : Env) : Prop where
  symbols : ∀ e ∈ env.symbols.entries, S e.2
  externals : ∀ e ∈ env.externals, S e.2

variable {S : External → Prop} {env env' : Env}

theorem Means.symbol? {name x} (h : env.Means S) (hx : env.symbol? name = some x) : S x := by
  simp only [Env.symbol?, CaseMap.get?, CaseMap.entry?] at hx
  split at hx
  · rename_i found
    obtain ⟨e, he, rfl⟩ := Option.map_eq_some_iff.mp found
    cases hx
    exact h.symbols e (List.mem_of_find?_eq_some he)
  · obtain ⟨e, he, rfl⟩ := Option.map_eq_some_iff.mp hx
    exact h.externals e (List.mem_of_find?_eq_some he)

/-- Putting something under a name changes nothing else. -/
theorem define_ok {name x} (h : env.define name x = .ok env') :
    env' = { env with symbols := ⟨env.symbols.entries ++ [(name, x)]⟩ } := by
  simp only [define, CaseMap.insert?] at h
  split at h
  · rename_i inserted
    split at inserted
    · cases inserted
    · cases inserted
      cases h
      rfl
  · cases h

theorem Means.define {name x} (h : env.Means S) (hx : S x) (hd : env.define name x = .ok env') :
    env'.Means S := by
  rw [define_ok hd]
  refine ⟨?_, h.externals⟩
  intro e he
  rcases List.mem_append.mp he with he | he
  · exact h.symbols e he
  · cases List.mem_singleton.mp he
    exact hx

/-- Names change, but not what bare members belong to nor which numbers are free. -/
structure SameFrame (env env' : Env) : Prop where
  receiver : env'.receiver = env.receiver
  nextId : env'.nextId = env.nextId

theorem define_frame {name x} (h : env.define name x = .ok env') : SameFrame env env' := by
  rw [define_ok h]
  exact ⟨rfl, rfl⟩

theorem SameFrame.trans {env'' : Env} (h : SameFrame env env') (h' : SameFrame env' env'') :
    SameFrame env env'' :=
  ⟨h'.receiver.trans h.receiver, h'.nextId.trans h.nextId⟩

theorem defineParams_ok {params : List Parameter} (h : env.Means S)
    (hp : ∀ p ∈ params, S (.expr (.parameter p))) (hd : env.defineParams params = .ok env') :
    env'.Means S ∧ SameFrame env env' := by
  induction params generalizing env with
  | nil =>
      cases hd
      exact ⟨h, rfl, rfl⟩
  | cons p ps ih =>
      simp only [defineParams] at hd
      have later := fun q hq => hp q (List.mem_cons_of_mem p hq)
      by_cases unnamed : p.name.isEmpty
      · rw [if_pos unnamed] at hd
        exact ih h later hd
      · rw [if_neg unnamed] at hd
        cases named : env.define p.name (.expr (.parameter p)) with
        | error e => rw [named] at hd; cases hd
        | ok mid =>
            rw [named] at hd
            obtain ⟨means, frame⟩ := ih (h.define (hp p (by simp)) named) later hd
            exact ⟨means, (define_frame named).trans frame⟩

theorem defineExternals_ok {values : List External} {i : Nat} (h : env.Means S)
    (hv : ∀ x ∈ values, S x) (ht : ∀ table, .symbols table ∈ values → ∀ e ∈ table, S e.2)
    (hd : env.defineExternals i values = .ok env') : env'.Means S ∧ SameFrame env env' := by
  induction values generalizing env i with
  | nil =>
      cases hd
      exact ⟨h, rfl, rfl⟩
  | cons x xs ih =>
      rw [defineExternals.eq_def] at hd
      split at hd
      · contradiction
      · rename_i table only
        cases only
        cases hd
        exact ⟨⟨h.symbols, ht table (by simp)⟩, rfl, rfl⟩
      · rename_i y ys _ same
        cases same
        cases named : env.define ("@" ++ toString i) x with
        | error e => rw [named] at hd; cases hd
        | ok mid =>
            rw [named] at hd
            obtain ⟨means, frame⟩ := ih (h.define (hv x (by simp)) named)
              (fun y hy => hv y (List.mem_cons_of_mem x hy))
              (fun table htable => ht table (List.mem_cons_of_mem x htable)) hd
            exact ⟨means, (define_frame named).trans frame⟩

theorem ofHost_ok {params values maxDepth} (hp : ∀ p ∈ params, S (.expr (.parameter p)))
    (hv : ∀ x ∈ values, S x) (ht : ∀ table, .symbols table ∈ values → ∀ e ∈ table, S e.2)
    (h : ofHost params values maxDepth = .ok env) :
    env.Means S ∧ env.receiver = receiverOf params ∧ Parameter.bound params ≤ env.nextId := by
  simp only [ofHost] at h
  generalize hstart : (⟨CaseMap.empty, [], receiverOf params, _, maxDepth⟩ : Env) = start at h
  have empty : start.Means S := by
    subst hstart
    exact ⟨by simp [CaseMap.empty], by simp⟩
  cases hmid : start.defineParams params with
  | error e => rw [hmid] at h; cases h
  | ok mid =>
      rw [hmid] at h
      obtain ⟨means, frame⟩ := defineParams_ok empty hp hmid
      obtain ⟨means, frame'⟩ := defineExternals_ok means hv ht h
      subst hstart
      refine ⟨means, (frame.trans frame').receiver, ?_⟩
      rw [(frame.trans frame').nextId]
      exact Nat.le_max_left _ _

theorem receiverOf_mem {params : List Parameter} {p : Parameter} (h : receiverOf params = some p) :
    p ∈ params := by
  simp only [receiverOf] at h
  split at h
  · split at h
    · cases h
      simp
    · cases h
  · cases h

end Source.Env

namespace Source

/-- What can be told of what has been read has been read. -/
theorem ok_of_map {α β : Type} {read : Except Diagnostic α × RecordCache} {f : α → β} {b : β}
    (h : read.1.toOption.map f = some b) : ∃ a cache, read = (.ok a, cache) ∧ f a = b := by
  obtain ⟨result, cache⟩ := read
  cases result with
  | error e => cases h
  | ok a => exact ⟨a, cache, rfl, by simpa [Except.toOption] using h⟩

/-- A text that is read is a derivable operand under the names at its start, promoted to the type
    that is asked for. -/
theorem readExpr_derives {c resultTy text e cache}
    (h : readExpr c resultTy text = (.ok e, cache)) :
    ∃ env o, Env.ofHost c.params c.values c.maxDepth = .ok env ∧ Derives env o ∧
      Finished o resultTy e := by
  simp only [readExpr, read] at h
  split at h
  · cases h
  · rename_i env henv
    split at h
    · rename_i e' s hread
      cases h
      obtain ⟨o, ho, he⟩ :=
        Reader.Yields.after (fun _ => wholeExpression_yields resultTy env) _ _ _ hread
      exact ⟨env, o, henv, ho, he⟩
    · cases h

end Source
end TypedExpr
