import TypedExpr.Proofs.ProjectedTexts

/-! # Bare members

A name under which there is nothing else is a member of the receiver, and so is every name behind
the sign for names, if nothing has been put under the two together. Either is read as the same
name behind `it` and a dot, whatever comes after it.
-/

namespace TypedExpr

namespace Source

open Token Reader

variable {env : Env} {expression : Part} {p : Parameter} {w w' : String} {run run' : TokenRun}
  {cache : RecordCache} {pos pos' : Nat}

/-! ## Steps that are enough -/

/-- It matters only what is done with results that are read. -/
theorem bind_congr_at {α β : Type} {r : Reader α} {f g : α → Reader β} {s : State}
    (h : ∀ a s', r s = .ok a s' → f a s' = g a s') : (r >>= f) s = (r >>= g) s := by
  cases read : r s with
  | ok a s' => rw [bind_of_ok read, bind_of_ok read, h a s' read]
  | error e s' => rw [bind_of_error read, bind_of_error read]

/-- No more members and indexes are read in more steps than there are tokens ahead. -/
theorem postfixesUpTo_enough {place : Place} (he : place.Local expression) {s : State}
    (regular : s.Regular) (o : Operand) {k k' : Nat} (enough : s.ahead ≤ k)
    (enough' : s.ahead ≤ k') :
    postfixesUpTo expression env k o s = postfixesUpTo expression env k' o s := by
  induction k generalizing k' o s with
  | zero =>
      have atEnd := State.atEnd_of_ahead (Nat.le_zero.mp enough)
      have noMember : s.token.kind ≠ .dot ∧ s.token.kind ≠ .openBracket := by simp [atEnd]
      rw [postfixesUpTo_ends noMember, postfixesUpTo_ends noMember]
  | succ k ih =>
      by_cases atEnd : s.token.kind = .endOfText
      · have noMember : s.token.kind ≠ .dot ∧ s.token.kind ≠ .openBracket := by simp [atEnd]
        rw [postfixesUpTo_ends noMember, postfixesUpTo_ends noMember]
      have some := State.ahead_of_inside atEnd
      obtain ⟨k', rfl⟩ : ∃ j, k' = j + 1 := ⟨k' - 1, by omega⟩
      have later : ∀ (o : Operand) (s' : State), Moves 1 s s' →
          postfixesUpTo expression env k o s' = postfixesUpTo expression env k' o s' := by
        intro o s' moved
        have fewer := moved.fewer
        exact ih moved.regular o (by omega) (by omega)
      simp only [postfixesUpTo]
      refine bind_congr_at fun dot s' looked => ?_
      cases looked
      split
      · refine bind_congr_at fun _ s₁ passed => bind_congr_at fun o s₂ read => ?_
        have moved := (Place.Follows.next (p := place) atEnd regular _ _ passed).1
        have moved' := (memberAccess_local he env _ _ s₁ moved.regular _ _ read).1
        exact later o s₂ ⟨moved'.regular, moved'.error.trans moved.error,
          moved'.cache.trans moved.cache, by have := moved.fewer; have := moved'.fewer; omega⟩
      · refine bind_congr_at fun bracket s' looked => ?_
        cases looked
        split
        · refine bind_congr_at fun o s₁ read => ?_
          exact later o s₁ (elementAccess_local he env _ s regular _ _ read).1
        · rfl

/-! ## Members of the receiver -/

/-- The name is an identifier with no meaning of its own. -/
structure Env.IsBare (env : Env) (w : String) : Prop where
  identifier : IsIdentifier w
  noWord : ∀ word ∈ ["true", "false", "null", "it", "iif", "new", "not"],
    Text.sameIgnoringCase w word = false
  noType : Predefined.ofName? w = none
  noSymbol : env.symbol? w = none

theorem named_it (same : Text.sameIgnoringCase w "it") :
    named expression env ⟨⟨.identifier, w, pos⟩, run, cache⟩ =
      (match env.receiver with
        | some p => do next; return .plain (.parameter p)
        | none => fail .noItInScope : Reader Operand) ⟨⟨.identifier, w, pos⟩, run, cache⟩ := by
  rw [named]
  show (if isWord ⟨.identifier, w, pos⟩ "true" = true then _ else _ : Reader Operand) _ = _
  simp only [isWord_of_word same]
  rfl

theorem Env.IsBare.named (bare : env.IsBare w) (receiver : env.receiver = some p) :
    named expression env ⟨⟨.identifier, w, pos⟩, run, cache⟩ =
      memberAccess expression env p.ty (some (.plain (.parameter p)))
        ⟨⟨.identifier, w, pos⟩, run, cache⟩ := by
  have noWord := bare.noWord
  simp only [List.forall_mem_cons] at noWord
  obtain ⟨yes, no, null, it, iif, new, -⟩ := noWord
  have word : ∀ v, isWord ⟨.identifier, w, pos⟩ v = Text.sameIgnoringCase w v := fun _ => rfl
  rw [Source.named]
  show (if isWord ⟨.identifier, w, pos⟩ "true" = true then _ else _ : Reader Operand) _ = _
  simp only [word, yes, no, null, it, iif, new, bare.noType, bare.noSymbol, receiver]
  rfl

/-- A member is known by its name alone, with the sign before it or without. -/
theorem memberAccess_matching (he : Part.Blind expression) {t : Ty} {target : Option Operand}
    (same : plainName w = plainName w') (alike : run.Alike run') :
    Reader.Matching Eq
      (memberAccess expression env t target ⟨⟨.identifier, w, pos⟩, run, cache⟩)
      (memberAccess expression env t target ⟨⟨.identifier, w', pos'⟩, run', cache⟩) := by
  obtain ⟨behind, parts, agree⟩ := memberAccess_parts he env t target
  have named : ∀ w pos run, memberAccess expression env t target
      ⟨⟨.identifier, w, pos⟩, run, cache⟩ = (next >>= fun _ =>
        behind ⟨.identifier, w, pos⟩ (plainName w)) ⟨⟨.identifier, w, pos⟩, run, cache⟩ := by
    intro w pos run
    have looked : token ⟨⟨.identifier, w, pos⟩, run, cache⟩ = .ok _ _ := rfl
    rw [parts, bind_of_ok looked, bind_of_ok identifier_reads]
  rw [named, named, ← same]
  cases alike with
  | done => exact agree _ _ _ _ _ ⟨.mk .., .done _ _, rfl⟩
  | failed => exact .error rfl rfl
  | token head tail => exact agree _ _ _ _ _ ⟨head, tail, rfl⟩

/-- Before whatever a bare member is the receiver's. -/
theorem primary_bare {place : Place} (he : Part.Blind expression) (local' : place.Local expression)
    (bare : env.IsBare w) (receiver : env.receiver = some p) (same : plainName w = plainName w')
    (alike : run.Alike run') (words : ∀ t ∈ run'.tokens, t.kind ≠ .endOfText) {i j k : Nat} :
    Reader.Matching Eq (primary expression env ⟨⟨.identifier, w, pos⟩, run, cache⟩)
      (primary expression env ⟨⟨.identifier, "it", i⟩,
        .token ⟨.dot, ".", j⟩ (.token ⟨.identifier, w', k⟩ run'), cache⟩) := by
  let o : Operand := .plain (.parameter p)
  let member : Reader Operand := memberAccess expression env o.ty (some o)
  let start : State := ⟨⟨.identifier, w', k⟩, run', cache⟩
  have regular : start.Regular := State.regular_of_words (List.forall_mem_cons.mpr ⟨nofun, words⟩)
  have dotted : primary expression env ⟨⟨.identifier, "it", i⟩,
      .token ⟨.dot, ".", j⟩ (.token ⟨.identifier, w', k⟩ run'), cache⟩ =
        (member >>= fun o => remaining >>= fun n => postfixesUpTo expression env n o) start := by
    rw [primary_named rfl (named_it (by decide)), receiver]
    refine bind_congr_at (r := member) (s := start) fun o s read => ?_
    have moved := (memberAccess_local local' env _ _ start regular _ _ read).1
    have fewer := moved.fewer
    have ahead : start.ahead ≤ run'.length + 1 := start.ahead_le
    refine postfixesUpTo_enough local' moved.regular o ?_ s.ahead_le
    show s.ahead ≤ run'.length + 1
    omega
  rw [dotted, primary_named rfl (bare.named receiver)]
  exact (memberAccess_matching he same alike).andThenSame fun o =>
    remaining_blind.thenSame fun n => postfixesUpTo_blind he env n o

/-- In an expression for which any number of levels is left. -/
theorem expressionAt_bare (n : Nat) (bare : env.IsBare w) (receiver : env.receiver = some p)
    (same : plainName w = plainName w') (alike : run.Alike run')
    (words : ∀ t ∈ run'.tokens, t.kind ≠ .endOfText) {i j k : Nat} :
    Reader.Matching Eq (expressionAt n env ⟨⟨.identifier, w, pos⟩, run, cache⟩)
      (expressionAt n env ⟨⟨.identifier, "it", i⟩,
        .token ⟨.dot, ".", j⟩ (.token ⟨.identifier, w', k⟩ run'), cache⟩) := by
  cases n with
  | zero => exact .error rfl rfl
  | succ n =>
      have he := (levels_blind n).1
      have noOperator := bare.noWord "not" (by simp)
      obtain ⟨operand, opened⟩ := operandAt_eq n
      have opens : ∀ s : State, s.token.unaryOp? = none →
          operandAt n env s = primary (expressionAt n) env s := by
        intro s none
        have looked : token s = .ok s.token s := rfl
        rw [opened, unaryOf, bind_of_ok looked, none]
      refine expressionOf_matching he (binaryOf_matching ((levels_blind n).2 env) ?_)
      rw [opens _ (unaryOp?_identifier noOperator pos), opens _ (unaryOp?_identifier (by decide) i)]
      exact primary_bare he (levels_local (.atEnd 0 none) n).1 bare receiver same alike words

/-! ## Texts -/

/-- A text that opens with a bare member, and the one that opens with `it`. -/
theorem readExpr_bare {c : Context} (host : Env.ofHost c.params c.values c.maxDepth = .ok env)
    (receiver : env.receiver = some p) (bare : env.IsBare w) (identifier : IsIdentifier w')
    (same : plainName w = plainName w') {r : String}
    (ends : ∀ d ∈ r.toList.head?, continuesIdentifier d = false) (resultTy : Option Ty) :
    (readExpr c resultTy (w ++ r)).map unplaced id =
      (readExpr c resultTy ("it." ++ w' ++ r)).map unplaced id := by
  have it : IsIdentifier "it" :=
    ⟨'i', ['t'], rfl, by decide, List.forall_mem_singleton.mpr (by decide)⟩
  have dot : (['.'], TokenKind.dot) ∈ signTable := by decide
  have none : ∀ c ∈ ([] : List Char), Text.isWhiteSpace c := nofun
  obtain ⟨run, behind⟩ := exists_cuts ([] ++ [] ++ w.toList) r.toList
  obtain ⟨run', behind', alike⟩ :=
    behind.shift ([] ++ [] ++ "it".toList ++ ['.'] ++ [] ++ w'.toList)
  have first := Cuts.token none (bare.identifier.lexeme ends) behind
  have member := Cuts.token none (identifier.lexeme ends) behind'
  have second := Cuts.token none (it.lexeme (breaks_cons.mpr (by decide)))
    (Cuts.sign dot (by decide) member)
  have scanned : scan (w ++ r) = _ := Cuts.scan (by simpa using first)
  have scanned' : scan ("it." ++ w' ++ r) = _ := Cuts.scan (by simpa using second)
  refine (read_matching c fun env' host' => ?_).symm
  cases host.symm.trans host'
  rw [scanned, scanned']
  exact wholeExpression_matching
    (expressionAt_bare env.maxDepth bare receiver same alike behind'.words) resultTy

/-! ## Names behind a sign -/

theorem IsIdentifier.escaped (h : IsIdentifier w) (plain : w.toList.head? ≠ some '@') :
    IsIdentifier ("@" ++ w) := by
  obtain ⟨c, cs, spelled, opens, continues⟩ := h
  have continues' : continuesIdentifier c := by
    rw [spelled, List.head?_cons, ne_eq, Option.some.injEq] at plain
    simp only [opensIdentifier, Bool.or_eq_true, beq_iff_eq, or_assoc] at opens
    simp only [continuesIdentifier, Bool.or_eq_true, beq_iff_eq]
    rcases opens with sign | line | letter
    · exact absurd sign plain
    · exact .inl line
    · exact .inr (Text.isXidContinue_of_isXidStart letter)
  refine ⟨'@', c :: cs, by simp [spelled], by decide, ?_⟩
  exact List.forall_mem_cons.mpr ⟨continues', continues⟩

theorem plainName_escaped (h : IsIdentifier w) (plain : w.toList.head? ≠ some '@') :
    plainName ("@" ++ w) = plainName w := by
  obtain ⟨c, cs, spelled, -⟩ := h
  have other : c ≠ '@' := by simpa [spelled] using plain
  have signed : ("@" ++ w).toList = '@' :: c :: cs := by simp [spelled]
  rw [plainName, plainName, signed, spelled, withoutSign_of_ne other]
  rfl

/-- No word begins with the sign. -/
theorem sameIgnoringCase_escaped {word : String}
    (h : (word.toList.map Char.toLower).head? ≠ some '@') :
    Text.sameIgnoringCase word ("@" ++ w) = false := by
  rw [Bool.eq_false_iff]
  intro same
  rw [Text.sameIgnoringCase_iff.mp same] at h
  exact h (by simp)

theorem Env.isBare_escaped (identifier : IsIdentifier w) (plain : w.toList.head? ≠ some '@')
    (free : env.symbol? ("@" ++ w) = none) : env.IsBare ("@" ++ w) where
  identifier := identifier.escaped plain
  noWord := by
    have all : ["true", "false", "null", "it", "iif", "new", "not"].all fun word =>
        (word.toList.map Char.toLower).head? ≠ some '@' := by decide
    intro word mem
    rw [Text.sameIgnoringCase_comm]
    exact sameIgnoringCase_escaped (of_decide_eq_true (List.all_eq_true.mp all word mem))
  noType := by
    have all : Predefined.all.all fun q => (q.name.toList.map Char.toLower).head? ≠ some '@' := by
      decide
    refine List.find?_eq_none.mpr fun q mem => ?_
    rw [sameIgnoringCase_escaped (of_decide_eq_true (List.all_eq_true.mp all q mem))]
    exact Bool.false_ne_true
  noSymbol := free

/-- A name with no other meaning is read as the member of the receiver, and so is any name behind
its sign, if nothing has been put under them: before whatever comes next, the text is the same tree
as with `it` and a dot before the name, or is none for the same reason. -/
theorem bare_members {c : Context} (host : Env.ofHost c.params c.values c.maxDepth = .ok env)
    (receiver : env.receiver = some p) (identifier : IsIdentifier w) {r : String}
    (ends : ∀ d ∈ r.toList.head?, continuesIdentifier d = false) (resultTy : Option Ty) :
    (env.IsBare w → (readExpr c resultTy (w ++ r)).map unplaced id =
      (readExpr c resultTy ("it." ++ w ++ r)).map unplaced id) ∧
    (w.toList.head? ≠ some '@' → env.symbol? ("@" ++ w) = none →
      (readExpr c resultTy ("@" ++ w ++ r)).map unplaced id =
        (readExpr c resultTy ("it." ++ w ++ r)).map unplaced id) := by
  refine ⟨fun bare => ?_, fun plain free => ?_⟩
  · exact readExpr_bare host receiver bare identifier rfl ends resultTy
  · exact readExpr_bare host receiver (Env.isBare_escaped identifier plain free) identifier
      (plainName_escaped identifier plain) ends resultTy

/-- A text has a length. It has no member `true`, which is a name only behind the sign. -/
theorem bare_members_length :
    let c : Context := ⟨[⟨0, "", .string⟩], [], 100, .empty none⟩
    ((readExpr c none ("Length" ++ "+1")).map unplaced id =
        (readExpr c none ("it." ++ "Length" ++ "+1")).map unplaced id ∧
      ((readExpr c none ("it." ++ "Length" ++ "+1")).1.toOption.map (·.ty) = some .int32)) ∧
    (readExpr c none ("@" ++ "true" ++ "")).map unplaced id =
      (readExpr c none ("it." ++ "true" ++ "")).map unplaced id := by
  intro c
  have host : Env.ofHost c.params c.values c.maxDepth =
      .ok ⟨CaseMap.empty, [], some ⟨0, "", .string⟩, 1, 100⟩ := rfl
  have length : IsIdentifier "Length" :=
    ⟨'L', "ength".toList, rfl, by decide, List.all_eq_true.mp (by decide)⟩
  have word : IsIdentifier "true" :=
    ⟨'t', "rue".toList, rfl, by decide, List.all_eq_true.mp (by decide)⟩
  refine ⟨⟨?_, by decide +kernel⟩, ?_⟩
  · exact (bare_members host rfl length (by rintro _ ⟨⟩; decide) none).1
      ⟨length, by decide, by decide, rfl⟩
  · exact (bare_members host rfl word (by simp) none).2 (by decide) rfl

end Source
end TypedExpr
