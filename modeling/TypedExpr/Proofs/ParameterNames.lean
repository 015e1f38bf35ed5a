import TypedExpr.Proofs.BareMembers
import TypedExpr.Proofs.ReadBack

/-! # Parameters under their names

Parameters whose names differ in more than case are put under these names, one without a name under
none. Each name in any case is then read as its parameter, whatever externals there are besides.
The word `it` is the parameter without a name only where there is no other one.
-/

namespace TypedExpr

/-- Two spellings of one key have the same entry. -/
theorem CaseMap.get?_of_sameKey {α : Type} (m : CaseMap α) {a b : String} (h : sameKey a b) :
    m.get? b = m.get? a := by
  have same : Text.toLowercase a = Text.toLowercase b := beq_iff_eq.mp h
  simp only [get?, entry?, sameKey, same]

namespace Source

open Token Reader

variable {params : List Parameter} {env env' : Env} {w name : String} {c : Context} {p : Parameter}

/-! ## Names in any case -/

theorem ofName?_of_sameIgnoringCase (same : Text.sameIgnoringCase w name) :
    Predefined.ofName? w = Predefined.ofName? name := by
  have letters := Text.sameIgnoringCase_iff.mp same
  simp only [Predefined.ofName?, Text.sameIgnoringCase, letters]

/-- In any case of ASCII letters a name is one. -/
theorem IsName.ofCase (h : IsName name) (same : Text.sameIgnoringCase w name) : IsName w where
  identifier := h.identifier.ofCase same
  free word mem := by
    have letters := Text.sameIgnoringCase_iff.mp same
    rw [Text.sameIgnoringCase, letters]
    exact h.free word mem
  noType := (ofName?_of_sameIgnoringCase same).trans h.noType

/-! ## What is put under names -/

namespace Env

/-- What has been put under a name is kept, and each key is taken once. -/
theorem define_keeps {x : External} (keys : env.symbols.keys.Nodup)
    (h : env.define name x = .ok env') :
    env'.symbols.keys.Nodup ∧ ∀ entry ∈ env.symbols.entries, entry ∈ env'.symbols.entries := by
  unfold define at h
  cases inserted : env.symbols.insert? name x with
  | none =>
      rw [inserted] at h
      cases h
  | some symbols =>
      rw [inserted] at h
      cases h
      obtain ⟨free, rfl⟩ := CaseMap.insert?_eq_some inserted
      refine ⟨?_, fun entry mem => List.mem_append_left _ mem⟩
      rw [CaseMap.keys_concat, List.nodup_append]
      refine ⟨keys, List.nodup_singleton _, ?_⟩
      rintro key taken _ hkey rfl
      rw [List.mem_singleton.mp hkey] at taken
      exact free taken

theorem defineExternals_keeps {values : List External} {i : Nat}
    (keys : env.symbols.keys.Nodup) (h : env.defineExternals i values = .ok env') :
    env'.symbols.keys.Nodup ∧ ∀ entry ∈ env.symbols.entries, entry ∈ env'.symbols.entries := by
  induction values generalizing env i with
  | nil =>
      cases h
      exact ⟨keys, fun _ mem => mem⟩
  | cons x xs ih =>
      rw [defineExternals.eq_def] at h
      split at h
      · contradiction
      · cases h
        exact ⟨keys, fun _ mem => mem⟩
      · rename_i y ys _ same
        cases same
        cases put : env.define ("@" ++ toString i) x with
        | error e =>
            rw [put] at h
            cases h
        | ok mid =>
            rw [put] at h
            obtain ⟨keys, kept⟩ := define_keeps keys put
            obtain ⟨keys, kept'⟩ := ih keys h
            exact ⟨keys, fun entry mem => kept' entry (kept entry mem)⟩

/-- Each name of a parameter is known in any case. -/
theorem ofHost_symbol? {values : List External} {maxDepth : Nat}
    (distinct : (params.map fun p => Text.toLowercase p.name).Nodup)
    (host : ofHost params values maxDepth = .ok env) (mem : p ∈ params)
    (named : p.name.isEmpty = false) (same : CaseMap.sameKey p.name w) :
    env.symbol? w = some (.expr (.parameter p)) := by
  let start : Env := ⟨CaseMap.empty, [], receiverOf params,
    max (Parameter.bound params) (External.tableBound (values.map ("", ·))), maxDepth⟩
  have free : (start.symbols.keys ++ params.map fun p => Text.toLowercase p.name).Nodup := distinct
  obtain ⟨mid, defined, -, keys, -, known⟩ := defineParams_distinct free
  change (start.defineParams params >>= fun env => env.defineExternals 0 values) = .ok env at host
  rw [defined] at host
  obtain ⟨keys, kept⟩ := defineExternals_keeps keys host
  have found := CaseMap.get?_of_mem keys (kept _ (known p mem named))
  rw [symbol?, CaseMap.get?_of_sameKey _ same, found]

end Env

/-- A parameter without a name takes the place of the receiver when it is alone. -/
theorem receiverOf_of_unnamed (mem : p ∈ params) (unnamed : p.name.isEmpty) :
    (params = [p] → receiverOf params = some p) ∧
      (params ≠ [p] → receiverOf params = none) := by
  constructor
  · rintro rfl
    exact if_pos unnamed
  · intro others
    match params, mem with
    | [q], mem =>
        rw [List.mem_singleton.mp mem] at others
        exact absurd rfl others
    | _ :: _ :: _, _ => rfl

/-! ## Texts of one word -/

theorem IsName.named {expression : Part} {pos : Nat} {run : TokenRun} {cache : RecordCache}
    (name : IsName w) (sees : env.symbol? w = some (.expr (.parameter p))) :
    named expression env ⟨⟨.identifier, w, pos⟩, run, cache⟩ =
      literal (.ok (.plain (.parameter p))) ⟨⟨.identifier, w, pos⟩, run, cache⟩ := by
  have word : ∀ v ∈ reserved, isWord ⟨.identifier, w, pos⟩ v = false := name.free
  simp only [reserved, List.forall_mem_cons] at word
  obtain ⟨yes, no, null, it, iif, new, -⟩ := word
  rw [Source.named]
  show (if isWord ⟨.identifier, w, pos⟩ "true" = true then _ else _ : Reader Operand) _ = _
  simp only [yes, no, null, it, iif, new, name.noType, sees]
  rfl

/-- A text is an identifier alone, which is no operator. -/
theorem readExpr_identifier {n : Nat} {x : Except Diagnostic Operand}
    (host : Env.ofHost c.params c.values c.maxDepth = .ok env) (levels : env.maxDepth = n + 1)
    (identifier : IsIdentifier w) (noOperator : Text.sameIgnoringCase w "not" = false)
    (reads : ∀ last, named (expressionAt n) env ⟨⟨.identifier, w, 0⟩, .done last, c.cache⟩ =
      literal x ⟨⟨.identifier, w, 0⟩, .done last, c.cache⟩) :
    readExpr c none w = (x.map Operand.expr, c.cache) := by
  have finish : Cuts ([] ++ [] ++ w.toList) [] _ := .done (by simp)
  have cuts := Cuts.token (by simp) (identifier.lexeme breaks_nil) finish
  have scanned : scan w = .token ⟨.identifier, w, 0⟩ (.done w.toList.length) :=
    Cuts.scan (by simpa using cuts)
  let start : State := ⟨⟨.identifier, w, 0⟩, .done w.toList.length, c.cache⟩
  let ends (o : Operand) : Reader Expr := do expect .endOfText .syntaxError; return o.expr
  have whole : (do next; wholeExpression none env) ⟨Token.atEnd 0, scan w, c.cache⟩ =
      (expressionAt (n + 1) env >>= ends) start := by
    rw [scanned, ← levels]
    rfl
  have opens : expressionAt (n + 1) env start = literal x start := by
    refine expressionAt_named rfl (unaryOp?_identifier noOperator 0) (reads _) fun o s read => ?_
    cases x with
    | error e => cases read
    | ok o =>
        cases read
        exact Level.stopsAt_of_kind (by simp [Token.atEnd])
  simp only [readExpr, read, host, whole]
  cases x with
  | error e =>
      rw [bind_of_error opens]
      rfl
  | ok o =>
      rw [bind_of_ok opens]
      rfl

/-- Each parameter with a name is what the name is read as, in any case: no two names are the same
but for case, and at most one parameter has none. The word `it` is read as the parameter without a
name if there is no other one, and is refused otherwise. -/
theorem parameters_named (distinct : (c.params.map fun p => Text.toLowercase p.name).Nodup)
    (levels : 0 < c.maxDepth) :
    (c.values = [] → ∃ env, Env.ofHost c.params c.values c.maxDepth = .ok env) ∧
    ∀ env, Env.ofHost c.params c.values c.maxDepth = .ok env →
      (∀ p ∈ c.params, p.name.isEmpty = false → ∀ w, IsName w → CaseMap.sameKey p.name w →
        readExpr c none w = (.ok (.parameter p), c.cache)) ∧
      (∀ p ∈ c.params, IsName p.name → ∀ w, Text.sameIgnoringCase w p.name →
        readExpr c none w = (.ok (.parameter p), c.cache)) ∧
      ∀ p ∈ c.params, p.name.isEmpty → ∀ w, Text.sameIgnoringCase w "it" →
        (c.params = [p] → readExpr c none w = (.ok (.parameter p), c.cache)) ∧
        (c.params ≠ [p] → readExpr c none w = (.error ⟨.noItInScope, 0⟩, c.cache)) := by
  refine ⟨fun none => ?_, fun env host => ?_⟩
  · obtain ⟨env, host, -⟩ := Env.ofHost_knows c.maxDepth distinct
    exact ⟨env, none ▸ host⟩
  obtain ⟨n, depth⟩ : ∃ n, env.maxDepth = n + 1 := by
    rw [Env.ofHost_maxDepth host]
    exact ⟨c.maxDepth - 1, by omega⟩
  have named : ∀ p ∈ c.params, p.name.isEmpty = false → ∀ w, IsName w → CaseMap.sameKey p.name w →
      readExpr c none w = (.ok (.parameter p), c.cache) := by
    intro p mem some w name same
    have sees := Env.ofHost_symbol? distinct host mem some same
    exact readExpr_identifier host depth name.identifier (name.free "not" (by decide))
      fun _ => name.named sees
  refine ⟨named, fun p mem name w same => ?_, fun p mem unnamed w same => ?_⟩
  · have key : CaseMap.sameKey p.name w := beq_iff_eq.mpr (Text.toLowercase_eq same).symm
    exact named p mem name.not_isEmpty w (name.ofCase same) key
  · have receiver := (Env.ofHost_ok (S := fun _ => True) (fun _ _ => trivial)
      (fun _ _ => trivial) (fun _ _ _ _ => trivial) host).2.1
    have word := isIdentifier_of_word same (by decide) (by decide)
    have noOperator : Text.sameIgnoringCase w "not" = false := by
      rw [Text.sameIgnoringCase, Text.sameIgnoringCase_iff.mp same]
      decide
    obtain ⟨alone, among⟩ := receiverOf_of_unnamed mem unnamed
    refine ⟨fun only => ?_, fun others => ?_⟩
    · refine readExpr_identifier (x := .ok (.plain (.parameter p))) host depth word noOperator
        fun _ => ?_
      rw [named_it same, receiver, alone only]
      rfl
    · refine readExpr_identifier (x := .error ⟨.noItInScope, 0⟩) host depth word noOperator
        fun _ => ?_
      rw [named_it same, receiver, among others]
      rfl

/-- Behind the parameter without a name stands one that is called `É`. -/
theorem parameters_named_accent :
    let it : Parameter := ⟨0, "", .string⟩
    let e : Parameter := ⟨1, "É", .int32⟩
    let c : Context := ⟨[it, e], [], defaultMaxDepth, .empty none⟩
    readExpr c none "É" = (.ok (.parameter e), .empty none) ∧
      readExpr c none "é" = (.ok (.parameter e), .empty none) ∧
      readExpr c none "It" = (.error ⟨.noItInScope, 0⟩, .empty none) ∧
      readExpr { c with params := [it] } none "IT" = (.ok (.parameter it), .empty none) := by
  intro it e c
  have distinct : (c.params.map fun p => Text.toLowercase p.name).Nodup := by decide
  have name : IsName "É" := ⟨⟨'É', [], rfl, by decide, nofun⟩, by decide, by decide⟩
  have small : IsName "é" := ⟨⟨'é', [], rfl, by decide, nofun⟩, by decide, by decide⟩
  obtain ⟨binds, reads⟩ := parameters_named distinct (by decide)
  obtain ⟨env, host⟩ := binds rfl
  obtain ⟨named, ascii, unnamed⟩ := reads env host
  let c' : Context := { c with params := [it] }
  have single : (c'.params.map fun p => Text.toLowercase p.name).Nodup := by decide
  obtain ⟨binds, reads⟩ := parameters_named single (by decide)
  obtain ⟨env, host⟩ := binds rfl
  obtain ⟨-, -, alone⟩ := reads env host
  have first : it ∈ c.params := List.mem_cons_self
  have second : e ∈ c.params := List.mem_cons_of_mem _ List.mem_cons_self
  refine ⟨?_, ?_, ?_, ?_⟩
  · exact ascii e second name "É" (by decide)
  · exact named e second rfl "é" small (by decide)
  · exact (unnamed it first rfl "It" (by decide)).2 nofun
  · exact (alone it List.mem_cons_self rfl "IT" (by decide)).1 rfl

/-- A parameter without a name cannot be reached beside another one. -/
theorem unnamed_parameter_unreachable :
    let c : Context := ⟨[⟨0, "", .string⟩, ⟨1, "n", .int32⟩], [], defaultMaxDepth, .empty none⟩
    (c.params.map fun p => Text.toLowercase p.name).Nodup ∧
      (readExpr c none "it").1 = .error ⟨.noItInScope, 0⟩ :=
  ⟨by decide, rfl⟩

end Source
end TypedExpr
