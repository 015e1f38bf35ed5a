import TypedExpr.Proofs.Positions
import TypedExpr.Proofs.Scanning

/-! # Layout does not matter

The words of a text with other blanks between them. Each word is read as the token that it was, and
what is made of the tokens is the same.
-/

namespace TypedExpr

/-! ## The same words with other blanks -/

namespace Token

/-- The words in order with blanks around them, one at least between two of them. -/
inductive Spaced : List String → List Char → Prop where
  | done {blanks} (blank : ∀ c ∈ blanks, Text.isWhiteSpace c) : Spaced [] blanks
  | word {blanks w ws rest} (blank : ∀ c ∈ blanks, Text.isWhiteSpace c)
      (apart : ws ≠ [] → ∃ c ∈ rest.head?, Text.isWhiteSpace c) (later : Spaced ws rest) :
      Spaced (w :: ws) (blanks ++ (w.toList ++ rest))

variable {kind : TokenKind} {word rest front text : List Char} {run : TokenRun}

/-- Behind a word there is a blank or nothing. -/
theorem Spaced.blank_behind {ws : List String} (later : Spaced ws rest)
    (apart : ws ≠ [] → ∃ c ∈ rest.head?, Text.isWhiteSpace c) :
    ∀ c ∈ rest.head?, Text.isWhiteSpace c := by
  intro c hc
  cases later with
  | done blank => exact blank c (List.mem_of_mem_head? hc)
  | word =>
      obtain ⟨d, hd, blank⟩ := apart (by simp)
      rwa [Option.mem_unique hc hd]

/-- No token goes on with the character. -/
structure Separates (c : Char) : Prop where
  name : endsIdentifier c
  number : endsNumber c
  quote : isQuote c = false
  sign : ∀ entry ∈ signTable, ∀ kind, (entry.1 ++ [c], kind) ∉ signTable

theorem Separates.of_blank {c : Char} (blank : Text.isWhiteSpace c) : Separates c := by
  obtain ⟨-, -, name, number, unsigned⟩ := blank_ends blank
  refine ⟨name, number, ?_, fun entry _ kind mem => unsigned (sign_chars mem c (by simp))⟩
  rw [Bool.eq_false_iff]
  exact fun quote => Bool.false_ne_true ((isQuote_plain quote).1.symm.trans blank)

theorem separates_space (cs : List Char) : ∀ c ∈ (' ' :: cs).head?, Separates c := by
  rintro _ ⟨⟩
  exact .of_blank (by decide)

/-- Before such a character a token is what it was. -/
theorem Lexeme.before {other : List Char} (h : Lexeme kind word rest)
    (apart : ∀ c ∈ other.head?, Separates c) : Lexeme kind word other := by
  have number : ∀ {fraction exponent suffix}, EndsNumber fraction exponent suffix other := by
    intro _ _ _ _ d hd
    have ends := (apart d hd).number
    simp only [endsNumber, Bool.and_eq_true, Bool.not_eq_true', Bool.or_eq_false_iff,
      beq_eq_false_iff_ne] at ends
    simp [ends]
  cases h with
  | identifier opens continues =>
      refine .identifier opens continues fun d hd => ?_
      simpa [endsIdentifier] using (apart d hd).name
  | integer h => exact .integer h number
  | real hw hf he hs part => exact .real hw hf he hs part number
  | quoted hq h =>
      refine .quoted hq h fun d hd => ?_
      rw [beq_eq_false_iff_ne]
      rintro rfl
      exact Bool.false_ne_true ((apart _ hd).quote.symm.trans hq)
  | sign h => exact .sign h fun d hd longer mem => (apart d hd).sign _ h longer mem

/-- The words of a cut text are cut as they were, wherever the blanks stand. -/
theorem Cuts.spaced (h : Cuts front text run) (clean : run.error? = none) {text' : List Char}
    (laid : Spaced (run.tokens.map (·.text)) text') (front' : List Char) :
    ∃ run', Cuts front' text' run' ∧ run.Alike run' := by
  induction h generalizing text' front' with
  | done =>
      cases laid with
      | done blank => exact ⟨_, .done blank, .done _ _⟩
  | failed => cases clean
  | @token front blanks kind word rest run _ lexeme later ih =>
      simp only [TokenRun.tokens, List.map_cons] at laid
      cases laid with
      | @word blanks _ _ rest' blank apart laid =>
          rw [String.toList_ofList]
          have here := lexeme.before fun c hc => .of_blank (laid.blank_behind apart c hc)
          obtain ⟨run', cuts, alike⟩ := ih clean laid (front' ++ blanks ++ word)
          exact ⟨_, .token blank here cuts, .token (.mk ..) alike⟩

theorem scan_spaced {text text' : String} (clean : (scan text).error? = none)
    (laid : Spaced ((scan text).tokens.map (·.text)) text'.toList) :
    (scan text).Alike (scan text') := by
  obtain ⟨run, cuts, alike⟩ := (cuts_scan text).spaced clean laid []
  have same : scan text' = run := cuts.scanFrom
  rwa [same]

end Token

namespace TokenRun.Alike

variable {run run' : TokenRun}

theorem error?_eq (h : run.Alike run') (clean : run.error? = none) : run'.error? = none := by
  induction h with
  | done => rfl
  | failed => cases clean
  | token _ _ ih => exact ih clean

theorem words_eq (h : run.Alike run') :
    run'.tokens.map (fun t => (t.kind, t.text)) = run.tokens.map fun t => (t.kind, t.text) := by
  induction h with
  | done | failed => rfl
  | token head _ ih =>
      cases head
      simp only [tokens, List.map_cons, ih]

end TokenRun.Alike

/-! ## The same reading -/

namespace Source

/-- Two texts under whose names readings match have one outcome. -/
theorem read_matching {α : Type} {whole : Env → Reader α} (c : Context) {text text' : String}
    (same : ∀ env, Env.ofHost c.params c.values c.maxDepth = .ok env → Reader.Matching Eq
      ((do Reader.next; whole env : Reader α) ⟨Token.atEnd 0, Token.scan text, c.cache⟩)
      ((do Reader.next; whole env : Reader α) ⟨Token.atEnd 0, Token.scan text', c.cache⟩)) :
    (read whole c text').map unplaced id = (read whole c text).map unplaced id := by
  simp only [read]
  split
  · rfl
  · rename_i env host
    have same := same env host
    generalize (do Reader.next; whole env : Reader α) ⟨Token.atEnd 0, Token.scan text, c.cache⟩ = x,
      (do Reader.next; whole env : Reader α) ⟨Token.atEnd 0, Token.scan text', c.cache⟩ = y
      at same ⊢
    cases same with
    | ok result state => simp [result, state.cache]
    | error problem cache => simp [problem, cache]

/-- Alike texts are read alike, whatever they are read as. -/
theorem read_unplaced {α : Type} {whole : Env → Reader α} (blind : ∀ env, Reader.Blind (whole env))
    (c : Context) {text text' : String} (alike : (Token.scan text).Alike (Token.scan text')) :
    (read whole c text').map unplaced id = (read whole c text).map unplaced id :=
  read_matching c fun env _ =>
    (Reader.next_blind.thenSame fun _ => blind env) _ _ ⟨.mk .., alike, rfl⟩

/-- A text with other blanks between its words is the same expression, or is none for the same
reason. -/
theorem readExpr_spaced {text text' : String} (clean : (Token.scan text).error? = none)
    (laid : Token.Spaced ((Token.scan text).tokens.map (·.text)) text'.toList) :
    (Token.scan text').error? = none ∧
      (Token.scan text').tokens.map (fun t => (t.kind, t.text)) =
        (Token.scan text).tokens.map (fun t => (t.kind, t.text)) ∧
      ∀ (c : Context) (resultTy : Option Ty),
        (readExpr c resultTy text').map unplaced id =
          (readExpr c resultTy text).map unplaced id := by
  have alike := Token.scan_spaced clean laid
  exact ⟨alike.error?_eq clean, alike.words_eq, fun c resultTy =>
    read_unplaced (wholeExpression_blind resultTy) c alike⟩

theorem readExpr_spaced_difference :
    (Token.scan "2-1.5f").error? = none ∧
      Token.Spaced ((Token.scan "2-1.5f").tokens.map (·.text)) " 2 - \t1.5f".toList ∧
      ∀ (c : Context) (resultTy : Option Ty),
        (readExpr c resultTy " 2 - \t1.5f").map unplaced id =
          (readExpr c resultTy "2-1.5f").map unplaced id := by
  have clean : (Token.scan "2-1.5f").error? = none := by decide
  have words : (Token.scan "2-1.5f").tokens.map (·.text) = ["2", "-", "1.5f"] := by decide
  have blank : ∀ c ∈ [' ', '\t'], Text.isWhiteSpace c := List.all_eq_true.mp (by decide)
  have space : ∀ c ∈ [' '], Text.isWhiteSpace c := fun c mem => blank c (by simp_all)
  have apart (cs : List Char) : ∃ c ∈ (' ' :: cs).head?, Text.isWhiteSpace c :=
    ⟨' ', rfl, space _ (by simp)⟩
  have laid : Token.Spaced ["2", "-", "1.5f"] " 2 - \t1.5f".toList :=
    .word space (fun _ => apart _) (.word space (fun _ => apart _)
      (.word blank (fun more => absurd rfl more) (.done (by simp))))
  rw [← words] at laid
  exact ⟨clean, laid, (readExpr_spaced clean laid).2.2⟩

end Source
end TypedExpr
