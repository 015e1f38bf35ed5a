import TypedExpr.Proofs.Locality
import TypedExpr.Proofs.Spacing

/-! # Texts put one behind another

Where no token goes on beyond the place where two texts meet, the tokens of the whole are those of
the first and then those of the second. The clause of an ordering is put together so, of its keys
and the words for their directions.
-/

namespace TypedExpr

namespace Token

variable {front text more : List Char} {run later : TokenRun} {kind : TokenKind}
  {word rest : List Char}

/-! ## Two texts -/

/-- The same text at another place has the same tokens there. -/
theorem Cuts.shift (h : Cuts front text run) (front' : List Char) :
    ∃ run', Cuts front' text run' ∧ run.Alike run' := by
  induction h generalizing front' with
  | done blank => exact ⟨_, .done blank, .done _ _⟩
  | failed blank fault => exact ⟨_, .failed blank fault, .failed _ _ _⟩
  | @token front blanks kind word rest run blank lexeme later ih =>
      obtain ⟨run', cuts, alike⟩ := ih (front' ++ blanks ++ word)
      exact ⟨_, .token blank lexeme cuts, .token (.mk ..) alike⟩

theorem Cuts.unique {run' : TokenRun} (h : Cuts front text run) (h' : Cuts front text run') :
    run = run' := h.scanFrom.symm.trans h'.scanFrom

theorem Cuts.after_blanks {blanks : List Char} (blank : ∀ c ∈ blanks, Text.isWhiteSpace c)
    (h : Cuts (front ++ blanks) text run) : Cuts front (blanks ++ text) run := by
  have both : ∀ {cs : List Char}, (∀ c ∈ cs, Text.isWhiteSpace c) →
      ∀ c ∈ blanks ++ cs, Text.isWhiteSpace c :=
    fun blank' c mem => (List.mem_append.mp mem).elim (blank c) (blank' c)
  cases h with
  | done blank' =>
      rw [List.append_assoc]
      exact .done (both blank')
  | failed blank' fault =>
      rw [List.append_assoc, ← List.append_assoc blanks]
      exact .failed (both blank') fault
  | @token _ blanks' kind word rest run blank' lexeme later =>
      have behind : Cuts (front ++ (blanks ++ blanks') ++ word) rest run := by
        rwa [← List.append_assoc front]
      rw [List.append_assoc, ← List.append_assoc blanks]
      exact .token (both blank') lexeme behind

theorem Lexeme.append (h : Lexeme kind word rest) (apart : ∀ c ∈ more.head?, Separates c) :
    Lexeme kind word (rest ++ more) := by
  cases rest with
  | nil => exact h.before apart
  | cons c rest => exact h.of_head fun d hd => hd

/-- A text without faults and one behind it, which opens with no part of a token before it. -/
theorem Cuts.append (h : Cuts front text run) (clean : run.error? = none)
    (apart : ∀ c ∈ more.head?, Separates c) (behind : Cuts (front ++ text) more later) :
    Cuts front (text ++ more) (run.followedBy later) := by
  induction h with
  | done blank => exact .after_blanks blank behind
  | failed => cases clean
  | @token front blanks kind word rest run blank lexeme _ ih =>
      simp only [List.append_assoc] at behind ⊢
      refine .token blank (lexeme.append apart) ?_
      simp only [List.append_assoc] at ih ⊢
      exact ih clean behind

theorem Cuts.scan {text : String} (h : Cuts [] text.toList run) : Token.scan text = run :=
  h.scanFrom

/-- The end has no characters. -/
theorem Lexeme.kind_ne (h : Lexeme kind word rest) : kind ≠ .endOfText := by
  rintro rfl
  cases h with
  | sign mem => exact absurd mem (by simp [signTable])

theorem Cuts.words (h : Cuts front text run) : ∀ t ∈ run.tokens, t.kind ≠ .endOfText := by
  intro t ht
  obtain ⟨rest, -, lexeme⟩ := h.piece t ht
  exact lexeme.kind_ne

/-- A sign that is part of no other one. -/
theorem Cuts.sign {c : Char} (mem : ([c], kind) ∈ signTable)
    (single : ∀ entry ∈ signTable, c ∈ entry.1 → entry.1 = [c])
    (behind : Cuts (front ++ [c]) more later) :
    Cuts front (c :: more) (.token ⟨kind, String.ofList [c], front.length⟩ later) := by
  have lexeme : Lexeme kind [c] more :=
    .sign mem fun d _ longer both => by simpa using single _ both (by simp)
  have cuts : Cuts front ([] ++ ([c] ++ more)) _ := .token (by simp) lexeme (by simpa using behind)
  simpa using cuts

theorem Separates.of_closing {c : Char} (h : c ∈ [')', ',']) : Separates c := by
  have all : [')', ','].all fun c => endsIdentifier c && (endsNumber c && (!isQuote c &&
      signTable.all fun entry => signTable.all fun other => other.1 != entry.1 ++ [c])) := by
    decide
  have closing := List.all_eq_true.mp all c h
  simp only [Bool.and_eq_true, Bool.not_eq_true', List.all_eq_true, bne_iff_ne] at closing
  obtain ⟨name, number, quote, signs⟩ := closing
  exact ⟨name, number, quote, fun entry mem kind longer => signs entry mem _ longer rfl⟩

theorem breaks_of_separates (apart : ∀ c ∈ rest.head?, Separates c) :
    Breaks continuesIdentifier rest :=
  fun d hd => by simpa [endsIdentifier] using (apart d hd).name

end Token

namespace Source

open Token Reader

theorem IsIdentifier.lexeme {w : String} {rest : List Char} (h : IsIdentifier w)
    (ends : Breaks continuesIdentifier rest) : Lexeme .identifier w.toList rest := by
  obtain ⟨c, cs, spelled, opens, continues⟩ := h
  rw [spelled]
  exact .identifier opens continues ends

/-! ## Places -/

/-- At another place a text is read as it is by itself. -/
theorem Reader.Blind.shifted {α : Type} {r : Reader α} (blind : Reader.Blind r) {text : String}
    {front : List Char} {run : TokenRun} (cuts : Cuts front text.toList run) (cache : RecordCache) :
    Matching Eq ((do next; r) ⟨Token.atEnd 0, Token.scan text, cache⟩)
      ((do next; r) ⟨Token.atEnd 0, run, cache⟩) := by
  obtain ⟨run', cuts', alike⟩ := (cuts_scan text).shift front
  cases cuts.unique cuts'
  exact (next_blind.thenSame fun _ => blind) _ _ ⟨.mk .., alike, rfl⟩

theorem Level.stopsAt_of_kind {level : Level} {t : Token}
    (h : t.kind ∈ [.closeParen, .comma, .endOfText]) : level.StopsAt t := by
  simp only [List.mem_cons, List.not_mem_nil, or_false] at h
  rcases h with kind | kind | kind
  all_goals exact ⟨by simp [kind], by simp [precedence?, isWord, kind], by simp [kind]⟩

theorem next_opens {run rest : TokenRun} {t : Token} (h : run.Opens t rest) (t₀ : Token)
    (cache : RecordCache) : next ⟨t₀, run, cache⟩ = .ok () ⟨t, rest, cache⟩ := by
  cases h <;> rfl

/-- Before a parenthesis, a comma or the end. -/
def Place.before {run rest : TokenRun} {t : Token} (opens : run.Opens t rest)
    (kind : t.kind ∈ [.closeParen, .comma, .endOfText]) (kept : Option RecordCache) : Place :=
  ⟨run, t, rest, opens, Level.stopsAt_of_kind kind,
    fun call => absurd (call ▸ kind) (by decide), kept⟩

/-- Before the end. -/
def Place.atEnd (pos : Nat) (kept : Option RecordCache) : Place :=
  .before (.done pos) (by simp [Token.atEnd]) kept

/-! ## Directions -/

/-- The words for the directions of keys, with whether they are ascending. -/
def directionWords : List (String × Bool) :=
  [("asc", true), ("ascending", true), ("desc", false), ("descending", false)]

/-- What stands behind a key for its direction: nothing, or one of the words in any case. -/
inductive DirectionText : List Char → Bool → Prop where
  | none {blanks} (blank : ∀ c ∈ blanks, Text.isWhiteSpace c) : DirectionText blanks true
  | word {blanks name w behind ascending} (blank : ∀ c ∈ blanks, Text.isWhiteSpace c)
      (apart : blanks ≠ []) (known : (name, ascending) ∈ directionWords)
      (same : Text.sameIgnoringCase w name) (blank' : ∀ c ∈ behind, Text.isWhiteSpace c) :
      DirectionText (blanks ++ (w.toList ++ behind)) ascending

section Directions

variable {w name : String} {ascending : Bool}

/-- Every name of a direction satisfies what the four of them do. -/
private theorem of_directionWords {P : String → Bool → Bool}
    (all : directionWords.all fun e => P e.1 e.2) (known : (name, ascending) ∈ directionWords) :
    P name ascending :=
  List.all_eq_true.mp all _ known

theorem direction_lexeme (known : (name, ascending) ∈ directionWords)
    (same : Text.sameIgnoringCase w name) {rest : List Char}
    (apart : ∀ c ∈ rest.head?, Separates c) : Lexeme .identifier w.toList rest := by
  have letters := of_directionWords (P := fun name _ =>
    (name.toList.all fun c => decide (c.toLower ∈ Text.letters)) && decide (name ≠ "")) (by decide)
    known
  rw [Bool.and_eq_true, decide_eq_true_eq] at letters
  exact (isIdentifier_of_word same letters.1 letters.2).lexeme (breaks_of_separates apart)

theorem direction_stops (known : (name, ascending) ∈ directionWords)
    (same : Text.sameIgnoringCase w name) (level : Level) (pos : Nat) :
    level.StopsAt ⟨.identifier, w, pos⟩ := by
  have others := of_directionWords (P := fun name _ => !(Text.sameIgnoringCase name "or") &&
    (!(Text.sameIgnoringCase name "and") && !(Text.sameIgnoringCase name "mod"))) (by decide) known
  simp only [Bool.and_eq_true, Bool.not_eq_true'] at others
  refine ⟨⟨nofun, nofun⟩, fun p hp => ?_, fun _ => nofun⟩
  simp only [precedence?, isWord_of_word same, others] at hp
  cases hp

theorem isAscending_word (known : (name, ascending) ∈ directionWords)
    (same : Text.sameIgnoringCase w name) {run rest : TokenRun} {t : Token}
    (opens : run.Opens t rest) (pos : Nat) (cache : RecordCache) :
    isAscending ⟨⟨.identifier, w, pos⟩, run, cache⟩ = .ok ascending ⟨t, rest, cache⟩ := by
  have goes : ∀ b, (do next; return b : Reader Bool) ⟨⟨.identifier, w, pos⟩, run, cache⟩ =
      .ok b ⟨t, rest, cache⟩ := by
    intro b
    rw [bind_of_ok (next_opens opens _ _)]
    rfl
  show (if (isWord _ "asc" || isWord _ "ascending") = true then do next; return true
    else if (isWord _ "desc" || isWord _ "descending") = true then do next; return false
    else return true : Reader Bool) _ = _
  simp only [isWord_of_word same]
  simp only [directionWords, List.mem_cons, List.not_mem_nil, or_false, Prod.mk.injEq] at known
  rcases known with ⟨rfl, rfl⟩ | ⟨rfl, rfl⟩ | ⟨rfl, rfl⟩ | ⟨rfl, rfl⟩
  all_goals exact goes _

theorem isAscending_none {s : State} (other : s.token.kind ≠ .identifier) :
    isAscending s = .ok true s := by
  have none : ∀ word, s.token.isWord word = false := by simp [isWord, other]
  show (if (s.token.isWord "asc" || s.token.isWord "ascending") = true then do next; return true
    else if (s.token.isWord "desc" || s.token.isWord "descending") = true then do next; return false
    else return true : Reader Bool) s = _
  simp only [none]
  rfl

/-- Behind an expression and its direction there is a comma or the end. What stands behind the
expression is then a place where it ends, and the direction is read. -/
theorem DirectionText.place {cs more front : List Char} {tail rest : TokenRun} {t : Token}
    (h : DirectionText cs ascending) (apart : ∀ c ∈ more.head?, Separates c)
    (behind : Cuts (front ++ cs) more tail) (opens : tail.Opens t rest)
    (kind : t.kind ∈ [.comma, .endOfText]) :
    (∀ c ∈ (cs ++ more).head?, Separates c) ∧ ∃ p : Place, p.kept = Option.none ∧
      Cuts front (cs ++ more) p.behind ∧ tail.length ≤ p.behind.length ∧
      ∀ cache, isAscending ⟨p.first, p.more, cache⟩ = .ok ascending ⟨t, rest, cache⟩ := by
  have head : ∀ {blanks : List Char} (later : List Char), (∀ c ∈ blanks, Text.isWhiteSpace c) →
      (∀ c ∈ later.head?, Separates c) → ∀ c ∈ (blanks ++ later).head?, Separates c := by
    intro blanks later blank apart c hc
    cases blanks with
    | nil => exact apart c hc
    | cons d blanks =>
        cases hc
        exact .of_blank (blank _ (by simp))
  cases h with
  | none blank =>
      have within : t.kind ∈ [.closeParen, .comma, .endOfText] := List.mem_cons_of_mem _ kind
      refine ⟨head more blank apart, .before opens within Option.none, rfl, ?_, Nat.le_refl _, ?_⟩
      · exact behind.after_blanks blank
      · intro cache
        refine isAscending_none ?_
        show t.kind ≠ _
        intro same
        simp [same] at kind
  | @word blanks name w after _ blank some known same blank' =>
      refine ⟨?_, ⟨.token ⟨.identifier, w, (front ++ blanks).length⟩ tail, _, _, .token _ _,
        direction_stops known same _ _, nofun, Option.none⟩, rfl, ?_, Nat.le_succ _,
        isAscending_word known same opens _⟩
      · obtain ⟨d, blanks, rfl⟩ := List.exists_cons_of_ne_nil some
        rintro c ⟨⟩
        exact .of_blank (blank _ (by simp))
      · rw [← List.append_assoc, ← List.append_assoc] at behind
        have lexeme := direction_lexeme known same (head more blank' apart)
        have cuts := Cuts.token blank lexeme (behind.after_blanks blank')
        rw [String.ofList_toList] at cuts
        simpa only [List.append_assoc] using cuts

end Directions

end Source

end TypedExpr
