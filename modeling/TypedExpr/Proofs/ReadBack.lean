import TypedExpr.Proofs.Climbing
import TypedExpr.Proofs.Keys

/-! # Texts of trees

A tree over numbers and truth values is what the reader makes of each text for it: with parentheses
where the levels of the grammar ask for them or more, with any sign or word for each operator, and
with any blanks. Names are told apart without their case.
-/

namespace TypedExpr.Source

open Reader

variable {params : List Parameter} {env : Env}

/-! ## Names -/

theorem IsName.not_isEmpty {w : String} (h : IsName w) : w.isEmpty = false := by
  obtain ⟨c, cs, hw, -⟩ := h.identifier
  rw [Bool.eq_false_iff]
  intro empty
  rw [String.isEmpty_iff.mp empty] at hw
  cases hw

namespace Env

theorem define_free {name : String} (x : External)
    (free : Text.toLowercase name ∉ env.symbols.keys) :
    env.define name x = .ok { env with symbols := ⟨env.symbols.entries ++ [(name, x)]⟩ } := by
  rw [define, CaseMap.insert?_of_notMem x free]

/-- Names of parameters that differ in more than case are all put under themselves. -/
theorem defineParams_distinct
    (distinct : (env.symbols.keys ++ params.map fun p => Text.toLowercase p.name).Nodup) :
    ∃ env', env.defineParams params = .ok env' ∧ env'.maxDepth = env.maxDepth ∧
      env'.symbols.keys.Nodup ∧ (∀ entry ∈ env.symbols.entries, entry ∈ env'.symbols.entries) ∧
      ∀ p ∈ params, p.name.isEmpty = false →
        (p.name, .expr (.parameter p)) ∈ env'.symbols.entries := by
  induction params generalizing env with
  | nil => exact ⟨env, rfl, rfl, by simpa using distinct, fun _ h => h, nofun⟩
  | cons p ps ih =>
      rw [List.map_cons] at distinct
      by_cases unnamed : p.name.isEmpty
      · have fewer := distinct.sublist ((List.sublist_cons_self _ _).append_left _)
        obtain ⟨env', defined, depth, keys, kept, known⟩ := ih fewer
        refine ⟨env', ?_, depth, keys, kept, fun q hq named => ?_⟩
        · rw [defineParams, if_pos unnamed]
          exact defined
        · rcases List.mem_cons.mp hq with rfl | hq
          · rw [unnamed] at named
            cases named
          · exact known q hq named
      · have free : Text.toLowercase p.name ∉ env.symbols.keys := by
          intro taken
          exact (List.nodup_append.mp distinct).2.2 _ taken _ (by simp) rfl
        have put := define_free (.expr (.parameter p)) free
        rw [List.append_cons, ← CaseMap.keys_concat (.expr (.parameter p))] at distinct
        obtain ⟨env', defined, depth, keys, kept, known⟩ := @ih
          { env with symbols := ⟨env.symbols.entries ++ [(p.name, .expr (.parameter p))]⟩ } distinct
        refine ⟨env', ?_, depth, keys, ?_, fun q hq named => ?_⟩
        · rw [defineParams, if_neg unnamed, put]
          exact defined
        · exact fun entry h => kept entry (List.mem_append_left _ h)
        · rcases List.mem_cons.mp hq with rfl | hq
          · exact kept _ (by simp)
          · exact known q hq named

theorem ofHost_knows (maxDepth : Nat)
    (distinct : (params.map fun p => Text.toLowercase p.name).Nodup) :
    ∃ env, ofHost params [] maxDepth = .ok env ∧ env.maxDepth = maxDepth ∧ env.Knows params := by
  let start : Env := ⟨CaseMap.empty, [], receiverOf params,
    max (Parameter.bound params) (External.tableBound []), maxDepth⟩
  have free : (start.symbols.keys ++ params.map fun p => Text.toLowercase p.name).Nodup := distinct
  obtain ⟨env, defined, depth, keys, -, known⟩ := defineParams_distinct free
  refine ⟨env, ?_, depth, fun p hp name => ?_⟩
  · change (start.defineParams params >>= fun env => env.defineExternals 0 []) = .ok env
    rw [defined]
    rfl
  · have found := CaseMap.get?_of_mem keys (known p hp name.not_isEmpty)
    rw [symbol?, found]

end Env

/-! ## Whole texts -/

/-- Each text of a tree is read as the tree, where expressions can be nested as deep as it has
words; no record types are made. -/
theorem readExpr_spelled {e : Expr} {t : Ty} {ws : List String} {text : String} {maxDepth : Nat}
    {cache : RecordCache} (distinct : (params.map fun p => Text.toLowercase p.name).Nodup)
    (tree : Elementary params e t) (spelled : Spells .conditional e ws)
    (layout : Layout ws text.toList) (enough : ws.length ≤ maxDepth) :
    ∀ resultTy ∈ [none, some t],
      readExpr ⟨params, [], maxDepth, cache⟩ resultTy text = (.ok e, cache) := by
  intro resultTy asked
  obtain ⟨env, host, rfl, knows⟩ := Env.ofHost_knows maxDepth distinct
  let start : State := ⟨Token.atEnd 0, Token.scan text, cache⟩
  have reads : Reaches (do next; wholeExpression resultTy env) start fun e' s =>
      e' = e ∧ s.cache = cache := by
    refine (next_covers (spelled.covers tree layout)).bind fun _ s faces => .token ?_
    rw [← List.append_nil ws] at faces
    have whole := (spelled.reads knows tree _ enough).parses _ _ _ faces Level.stops_nil
    refine whole.bind fun o s ho => ?_
    have ends : Reaches (do expect .endOfText .syntaxError; return o.expr) s fun e' s =>
        e' = e ∧ s.cache = cache := .expect ho.faces.ahead (.pure ⟨ho.expr, ho.faces.cache⟩)
    simp only [List.mem_cons, List.not_mem_nil, or_false] at asked
    rcases asked with rfl | rfl
    · exact ends
    · have same : o.promote? t true = some o := if_pos ho.isOf.ty
      simp only [same]
      exact ends
  obtain ⟨_, s, done, rfl, rfl⟩ := reads
  simp only [readExpr, read, host]
  rw [done]

/-- From left to right, but the remainder first. -/
theorem readExpr_spelled_remainder :
    let x : Parameter := ⟨0, "x", .int32⟩
    let number (n : Int) : Expr := .constant (.int32 n) .int32
    readExpr ⟨[x], [], 7, .empty none⟩ none "x-1 - 2 Mod x" =
      (.ok (.binary .subtract (.binary .subtract (.parameter x) (number 1) .int32)
        (.binary .modulo (number 2) (.parameter x) .int32) .int32), .empty none) := by
  intro x number
  have name : IsName "x" := ⟨⟨'x', [], rfl, by decide, nofun⟩, by decide, by decide⟩
  have parameter : Elementary [x] (.parameter x) .int32 := .parameter (by simp) name (.inl rfl)
  have one : Elementary [x] (number 1) .int32 := .literal (by decide)
  have two : Elementary [x] (number 2) .int32 := .literal (by decide)
  have difference := @Spells.binary .subtract (.parameter x) (number 1) .int32 "-" ["x"] ["1"]
    (.inl (by decide)) (.ofTighter (.ofTighter .parameter))
    (.ofTighter (.literal (k := 1) rfl rfl))
  have remainder := @Spells.binary .modulo (number 2) (.parameter x) .int32 "Mod" ["2"] ["x"]
    (.inr ⟨"mod", rfl, by decide⟩) (.ofTighter (.literal (k := 2) rfl rfl)) .parameter
  have spelled := @Spells.binary .subtract _ _ .int32 "-" _ _ (.inl (by decide)) difference
    remainder
  have layout : Layout ["x", "-", "1", "-", "2", "Mod", "x"] "x-1 - 2 Mod x".toList := by
    have text : "x-1 - 2 Mod x".toList = [] ++ ("x".toList ++ ([] ++ ("-".toList ++ ([] ++
        ("1".toList ++ ([' '] ++ ("-".toList ++ ([' '] ++ ("2".toList ++ ([' '] ++
          ("Mod".toList ++ ([' '] ++ ("x".toList ++ []))))))))))))) := by decide
    have blank : ∀ c ∈ [' '], Text.isWhiteSpace c := List.forall_mem_singleton.mpr (by decide)
    rw [text]
    exact .word nofun (by decide) (.word nofun (by decide) (.word nofun (by decide)
      (.word blank (by decide) (.word blank (by decide) (.word blank (by decide)
        (.word blank (by decide) (.done nofun)))))))
  exact readExpr_spelled (by decide)
    (.binary (.arithmetic rfl) (.binary (.arithmetic rfl) parameter one)
      (.binary (.arithmetic rfl) two parameter))
    (.ofJoined (.ofTighter (.ofTighter (.ofTighter spelled)))) layout (by decide) none (by simp)

end TypedExpr.Source
