import TypedExpr.Proofs.Lexemes

/-! # The tokens of a text

A text is cut into tokens with blanks in between, up to its end or to the first fault. There is one
way to cut it, and the scanner finds it. Nothing visible is left out, and no token could be longer.
-/

namespace TypedExpr

/-- The token at the end of the text, when the run gets there. -/
def TokenRun.end? : TokenRun → Option Token
  | .done pos => some (Token.atEnd pos)
  | .failed _ => none
  | .token _ rest => rest.end?

namespace Token

/-- What stands behind `front` is cut into the tokens of the run. -/
inductive Cuts : (front text : List Char) → TokenRun → Prop where
  | done {front blanks} (blank : ∀ c ∈ blanks, Text.isWhiteSpace c) :
      Cuts front blanks (.done (front ++ blanks).length)
  | failed {front blanks rest problem n} (blank : ∀ c ∈ blanks, Text.isWhiteSpace c)
      (fault : Fault problem n rest) :
      Cuts front (blanks ++ rest) (.failed ⟨problem, (front ++ blanks).length + n⟩)
  | token {front blanks kind word rest run} (blank : ∀ c ∈ blanks, Text.isWhiteSpace c)
      (lexeme : Lexeme kind word rest) (later : Cuts (front ++ blanks ++ word) rest run) :
      Cuts front (blanks ++ (word ++ rest))
        (.token ⟨kind, String.ofList word, (front ++ blanks).length⟩ run)

/-- The run accounts for the text up to a position: to its end, or to a fault. -/
inductive Accounts (text : List Char) (run : TokenRun) : Nat → Prop where
  | finish (h : run.end? = some (atEnd text.length)) : Accounts text run text.length
  | fault {front rest problem n} (same : text = front ++ rest) (fault : Fault problem n rest)
      (h : run.error? = some ⟨problem, front.length + n⟩) : Accounts text run front.length

/-- The run has every character of the text at its place, and nothing else. -/
structure Lossless (text : List Char) (run : TokenRun) : Prop where
  /-- The text is cut into the tokens of the run. -/
  cuts : Cuts [] text run
  /-- There is no other way to cut it. -/
  unique : ∀ other, Cuts [] text other → other = run
  /-- Each token ends before the next begins. -/
  ordered : run.tokens.Pairwise fun s t => s.pos < t.pos ∧ s.pos + s.text.length ≤ t.pos
  /-- A token has the characters from its position on and is one by its kind. -/
  piece : ∀ t ∈ run.tokens, ∃ rest, text.drop t.pos = t.text.toList ++ rest ∧
    Lexeme t.kind t.text.toList rest
  /-- No more of the characters from its position on are a token of any kind. -/
  longest : ∀ t ∈ run.tokens, ∀ kind word, word <+: text.drop t.pos → Lexeme kind word [] →
    word.length ≤ t.text.length
  /-- Up to the end or a fault, what is visible belongs to a token. -/
  accounts : ∃ reach, Accounts text run reach ∧
    (∀ t ∈ run.tokens, t.pos + t.text.length ≤ reach) ∧
    ∀ n < reach, ∀ c ∈ text[n]?, Text.isWhiteSpace c = false →
      ∃ t ∈ run.tokens, t.pos ≤ n ∧ n < t.pos + t.text.length

variable {front text : List Char} {run : TokenRun} {t : Token}

/-! ## One way to cut -/

theorem Lexeme.length_pos {kind : TokenKind} {word rest : List Char} (h : Lexeme kind word rest) :
    0 < word.length := by
  obtain ⟨c, cs, rfl, -⟩ := h.visible
  simp

theorem Lexeme.scanFrom {kind : TokenKind} {word rest : List Char} (h : Lexeme kind word rest)
    (pos : Nat) : scanFrom 0 pos (word ++ rest) =
      .token ⟨kind, String.ofList word, pos⟩ (scanFrom 0 (pos + word.length) rest) := by
  obtain ⟨c, cs, rfl, visible⟩ := h.visible
  have skipped := scanFrom_skip (pos + 1) cs rest
  rw [List.cons_append, Token.scanFrom]
  simp [visible, h.lexeme, skipped, Nat.add_assoc, Nat.add_comm 1]

theorem Fault.scanFrom {problem : Problem} {n : Nat} (h : Fault problem n text) (pos : Nat) :
    scanFrom 0 pos text = .failed ⟨problem, pos + n⟩ := by
  obtain ⟨c, cs, rfl, visible⟩ := h.visible
  rw [Token.scanFrom]
  simp [visible, h.lexeme]

/-- However a text is cut, the scanner cuts it so. -/
theorem Cuts.scanFrom (h : Cuts front text run) : scanFrom 0 front.length text = run := by
  induction h with
  | @done front blanks blank =>
      have passed : Token.scanFrom 0 front.length (blanks ++ []) = _ := scanFrom_blanks blank _
      simpa [Token.scanFrom] using passed
  | failed blank fault => rw [scanFrom_blanks blank, fault.scanFrom, List.length_append]
  | token blank lexeme later ih =>
      rw [scanFrom_blanks blank, lexeme.scanFrom, ← ih]
      simp only [List.length_append]

/-- Every text can be cut. -/
theorem exists_cuts (front text : List Char) : ∃ run, Cuts front text run := by
  induction long : text.length using Nat.strong_induction_on generalizing front text with
  | _ n ih =>
    obtain ⟨blanks, rest, rfl, blank, visible⟩ := exists_takeWhile Text.isWhiteSpace text
    cases rest with
    | nil =>
        rw [List.append_nil]
        exact ⟨_, .done blank⟩
    | cons c cs =>
        rcases lexeme_or_fault (breaks_cons.mp visible) cs with ⟨kind, word, rest, same, h⟩ |
          ⟨problem, n, fault⟩
        · rw [same] at long ⊢
          have shorter : rest.length < n := by
            have := h.length_pos
            simp only [List.length_append] at long
            omega
          obtain ⟨run, later⟩ := ih rest.length shorter (front ++ blanks ++ word) rest rfl
          exact ⟨_, .token blank h later⟩
        · exact ⟨_, .failed blank fault⟩

theorem cuts_scan (text : String) : Cuts [] text.toList (scan text) := by
  obtain ⟨run, cuts⟩ := exists_cuts [] text.toList
  have same : scan text = run := cuts.scanFrom
  rwa [same]

/-! ## Nothing is lost -/

/-- A token goes as far as any token from its first character on. -/
theorem Lexeme.longest {kind other : TokenKind} {word longer rest : List Char}
    (h : Lexeme kind word rest) (lies : longer <+: word ++ rest) (alone : Lexeme other longer []) :
    longer.length ≤ word.length := by
  by_contra! beyond
  obtain ⟨more, rfl⟩ : word <+: longer :=
    List.prefix_of_prefix_length_le (List.prefix_append word rest) lies beyond.le
  have front : more <+: rest := (List.prefix_append_right_inj word).mp lies
  have here : Lexeme kind word more := h.of_head fun d hd => by
    obtain ⟨tail, rfl⟩ := front
    obtain ⟨more, rfl⟩ := List.head?_eq_some_iff.mp hd
    rfl
  obtain ⟨c, cs, rfl, -⟩ := h.visible
  have long : Token.lexeme c (cs ++ more) = .ok (other, (cs ++ more).length + 1) := by
    simpa using alone.lexeme
  rw [here.lexeme] at long
  simp only [Except.ok.injEq, Prod.mk.injEq, List.length_append] at long
  simp only [List.length_append] at beyond
  omega

theorem Cuts.front_le (h : Cuts front text run) : ∀ t ∈ run.tokens, front.length ≤ t.pos := by
  induction h with
  | done | failed => simp [TokenRun.tokens]
  | token blank lexeme later ih =>
      simp only [TokenRun.tokens, List.forall_mem_cons, List.length_append] at ih ⊢
      refine ⟨by omega, fun t ht => ?_⟩
      have := ih t ht
      omega

theorem Cuts.ordered (h : Cuts front text run) :
    run.tokens.Pairwise fun s t => s.pos < t.pos ∧ s.pos + s.text.length ≤ t.pos := by
  induction h with
  | done | failed => exact .nil
  | token blank lexeme later ih =>
      refine .cons (fun t ht => ?_) ih
      have behind := later.front_le t ht
      have := lexeme.length_pos
      simp only [List.length_append, String.length_ofList] at behind ⊢
      omega

theorem Cuts.piece (h : Cuts front text run) : ∀ t ∈ run.tokens,
    ∃ rest, (front ++ text).drop t.pos = t.text.toList ++ rest ∧
      Lexeme t.kind t.text.toList rest := by
  induction h with
  | done | failed => simp [TokenRun.tokens]
  | @token front blanks kind word rest run blank lexeme later ih =>
      refine List.forall_mem_cons.mpr ⟨⟨rest, ?_, ?_⟩, ?_⟩
      · rw [← List.append_assoc, List.drop_left, String.toList_ofList]
      · rwa [String.toList_ofList]
      · simpa only [List.append_assoc] using ih

private theorem Accounts.token {reach : Nat} (h : Accounts text run reach) (t : Token) :
    Accounts text (.token t run) reach := by
  cases h with
  | finish h => exact .finish h
  | fault same fault h => exact .fault same fault h

/-- Blanks behind `front` are what stands there. -/
private theorem blank_at {blanks rest : List Char} (blank : ∀ c ∈ blanks, Text.isWhiteSpace c)
    {n : Nat} (behind : front.length ≤ n) (before : n < (front ++ blanks).length) {c : Char}
    (hc : c ∈ (front ++ (blanks ++ rest))[n]?) : Text.isWhiteSpace c := by
  have within : n - front.length < blanks.length := by
    rw [List.length_append] at before
    omega
  rw [List.getElem?_append_right behind, List.getElem?_append_left within] at hc
  exact blank c (List.mem_of_getElem? hc)

theorem Cuts.accounts (h : Cuts front text run) : ∃ reach, Accounts (front ++ text) run reach ∧
    front.length ≤ reach ∧ (∀ t ∈ run.tokens, t.pos + t.text.length ≤ reach) ∧
    ∀ n < reach, front.length ≤ n → ∀ c ∈ (front ++ text)[n]?, Text.isWhiteSpace c = false →
      ∃ t ∈ run.tokens, t.pos ≤ n ∧ n < t.pos + t.text.length := by
  induction h with
  | @done front blanks blank =>
      refine ⟨_, .finish rfl, by simp, by simp [TokenRun.tokens], ?_⟩
      intro n before behind c hc visible
      rw [← List.append_nil blanks] at hc
      simp [blank_at blank behind before hc] at visible
  | @failed front blanks rest problem n blank fault =>
      rw [← List.append_assoc]
      refine ⟨_, .fault rfl fault rfl, by simp, by simp [TokenRun.tokens], ?_⟩
      intro n before behind c hc visible
      rw [List.append_assoc] at hc
      simp [blank_at blank behind before hc] at visible
  | @token front blanks kind word rest run blank lexeme later ih =>
      obtain ⟨reach, accounted, past, within, covered⟩ := ih
      have same : front ++ (blanks ++ (word ++ rest)) = front ++ blanks ++ word ++ rest := by simp
      rw [← same] at accounted
      refine ⟨reach, accounted.token _, ?_, ?_, ?_⟩
      · simp only [List.length_append] at past
        omega
      · refine List.forall_mem_cons.mpr ⟨?_, within⟩
        simpa [Nat.add_assoc] using past
      · intro n before behind c hc visible
        by_cases inBlanks : n < (front ++ blanks).length
        · simp [blank_at blank behind inBlanks hc] at visible
        by_cases inWord : n < (front ++ blanks ++ word).length
        · refine ⟨_, List.mem_cons_self, by simpa using inBlanks, ?_⟩
          simpa [Nat.add_assoc] using inWord
        · rw [same] at hc
          obtain ⟨t, ht, lies⟩ := covered n before (by omega) c hc visible
          exact ⟨t, List.mem_cons_of_mem _ ht, lies⟩

/-- The scanner loses nothing, and tells tokens from each other as their grammar does. -/
theorem scan_lossless (text : String) : Lossless text.toList (scan text) := by
  have cuts := cuts_scan text
  exact {
    cuts
    unique := fun other h => h.scanFrom.symm
    ordered := cuts.ordered
    piece := cuts.piece
    longest := fun t ht kind word lies alone => by
      obtain ⟨rest, same, lexeme⟩ := cuts.piece t ht
      rw [List.nil_append] at same
      rw [same] at lies
      simpa only [String.length_toList] using lexeme.longest lies alone
    accounts := by
      obtain ⟨reach, accounted, -, within, covered⟩ := cuts.accounts
      exact ⟨reach, accounted, within, fun n before => covered n before n.zero_le⟩ }

end Token
end TypedExpr
