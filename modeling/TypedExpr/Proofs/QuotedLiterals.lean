import TypedExpr.Proofs.LiteralTexts

/-! # Quoted texts

A text between quotes, with the quotes in it doubled, is one token. It is read as the text again,
whatever the text is, and a character comes back from between single quotes. Each token of quoted
text is written so, and ends at the first quote that does not stand in a pair.
-/

namespace TypedExpr

namespace Token

variable {quote : Char} {s : List Char} {rest cs : List Char}

/-! ## Quotations -/

/-- The characters with every quote of the kind twice. -/
def doubled (quote : Char) (s : List Char) : List Char :=
  s.flatMap fun c => if c = quote then [c, c] else [c]

/-- The text as a literal between quotes of the kind. -/
def quotation (quote : Char) (s : String) : String :=
  String.ofList (quote :: (doubled quote s.toList ++ [quote]))

theorem toList_quotation (quote : Char) (s : String) :
    (quotation quote s).toList = quote :: (doubled quote s.toList ++ [quote]) :=
  String.toList_ofList

theorem head?_quotation (quote : Char) (s : String) :
    (quotation quote s).toList.head? = some quote := by
  rw [toList_quotation, List.head?_cons]

theorem doubled_cons_quote (quote : Char) (s : List Char) :
    doubled quote (quote :: s) = quote :: quote :: doubled quote s := by
  simp [doubled]

theorem doubled_cons_other {c : Char} (other : c ≠ quote) (s : List Char) :
    doubled quote (c :: s) = c :: doubled quote s := by
  simp [doubled, other]

/-- Doubled quotes do not close the literal. -/
theorem quoted_doubled (quote : Char) (s : List Char) :
    Quoted quote (doubled quote s ++ [quote]) := by
  induction s with
  | nil => exact .close
  | cons c s ih =>
      by_cases same : c = quote
      · subst same
        rw [doubled_cons_quote]
        exact .pair ih
      · rw [doubled_cons_other same]
        exact .other same ih

/-- What ends at the first quote outside a pair is a text with its quotes doubled. -/
theorem Quoted.exists_doubled (h : Quoted quote cs) : ∃ s, cs = doubled quote s ++ [quote] := by
  induction h with
  | close => exact ⟨[], rfl⟩
  | @other c cs other later ih =>
      obtain ⟨s, rfl⟩ := ih
      exact ⟨c :: s, by rw [doubled_cons_other other]; rfl⟩
  | pair later ih =>
      obtain ⟨s, rfl⟩ := ih
      exact ⟨quote :: s, by rw [doubled_cons_quote]; rfl⟩

theorem replaceFrom_doubled (quote : Char) (s : List Char) :
    Text.replaceFrom [quote, quote] [quote] 0 (doubled quote s) = s := by
  induction s with
  | nil => rfl
  | cons c s ih =>
      by_cases same : c = quote
      · subst same
        simp [doubled_cons_quote, Text.replaceFrom, ih]
      · have other : quote ≠ c := fun eq => same eq.symm
        simp [doubled_cons_other same, Text.replaceFrom, other, ih]

/-- A quotation gives its text back. -/
theorem unquote_quotation (quote : Char) (s : String) :
    Operand.unquote (quotation quote s).toList = s.toList := by
  rw [toList_quotation, Operand.unquote, List.dropLast_concat, replaceFrom_doubled]

/-! ## Their tokens -/

/-- Where no further quote follows, a quotation is a token. -/
theorem lexeme_quotation (hq : isQuote quote) (s : String) (ends : rest.head? ≠ some quote) :
    Lexeme .stringLiteral (quotation quote s).toList rest := by
  rw [toList_quotation]
  refine .quoted hq (quoted_doubled quote _) fun d hd => ?_
  rw [beq_eq_false_iff_ne]
  rintro rfl
  exact ends hd

/-- There are no other tokens of quoted text. -/
theorem Lexeme.exists_quotation {word : List Char} (h : Lexeme .stringLiteral word rest) :
    ∃ quote s, isQuote quote ∧ word = (quotation quote s).toList ∧ rest.head? ≠ some quote := by
  cases h with
  | @quoted quote cs _ hq quoted ends =>
      obtain ⟨s, rfl⟩ := quoted.exists_doubled
      refine ⟨quote, String.ofList s, hq, by rw [toList_quotation, String.toList_ofList], ?_⟩
      intro follows
      simpa using ends quote follows
  | sign mem => exact absurd mem (by simp [signTable])

end Token

namespace Operand

open Token

variable {kind : TokenKind} {pos : Nat}

theorem ofQuoted_text (s : String) :
    ofQuoted ⟨kind, quotation '"' s, pos⟩ = .ok (literal (.string s) s) := by
  have outer : some '"' ≠ some '\'' := by decide
  simp only [ofQuoted, head?_quotation, outer, unquote_quotation, String.ofList_toList, if_false]

/-- Between single quotes there must be one character. -/
theorem ofQuoted_singleton (d : Char) :
    ofQuoted ⟨kind, quotation '\'' (String.singleton d), pos⟩ =
      .ok (literal (.char d) (String.singleton d)) := by
  simp only [ofQuoted, head?_quotation, unquote_quotation, String.toList_singleton, if_true]
  rfl

theorem ofQuoted_refused {s : String} (several : s.length ≠ 1) :
    ofQuoted ⟨kind, quotation '\'' s, pos⟩ = .error ⟨.invalidCharacterLiteral, pos⟩ := by
  simp only [ofQuoted, head?_quotation, unquote_quotation, if_true]
  split
  · rename_i one
    exact absurd (by rw [← String.length_toList, one]; rfl) several
  · rfl

end Operand

namespace Source

open Token

variable {c : Context} {blanks rest : List Char} {quote : Char}

theorem scan_quotation (hq : isQuote quote) (s : String)
    (blank : ∀ d ∈ blanks, Text.isWhiteSpace d) (ends : rest.head? ≠ some quote) :
    Token.scan (String.ofList (blanks ++ ((quotation quote s).toList ++ rest))) =
      .token ⟨.stringLiteral, quotation quote s, blanks.length⟩
        (scanFrom 0 (blanks.length + (quotation quote s).length) rest) := by
  rw [Token.scan, String.toList_ofList, scanFrom_blanks blank,
    (lexeme_quotation hq s ends).scanFrom, String.ofList_toList, String.length_toList,
    Nat.zero_add]

/-- A quotation alone is read as what its token stands for. -/
theorem readExpr_quotation (ready : c.Ready) (hq : isQuote quote) (s : String) {o : Operand}
    (made : Operand.ofQuoted ⟨.stringLiteral, quotation quote s, 0⟩ = .ok o) :
    readExpr c none (quotation quote s) = (.ok o.expr, c.cache) := by
  have denotes : Token.Denotes ⟨.stringLiteral, String.ofList (quotation quote s).toList, 0⟩
      (.ok o) := by
    rw [String.ofList_toList, ← made]
    exact .quoted rfl
  have whole := readExpr_alone ready (lexeme_quotation hq s (by simp)) denotes
  rwa [String.ofList_toList] at whole

/-- A text comes back from between double quotes, and a character from between single quotes, where
nothing else can stand. A quotation is one token just where no further quote follows it, and no
other token is of quoted text. -/
theorem quotations_read_back :
    (∀ s : String, Token.scan (quotation '"' s) = .token ⟨.stringLiteral, quotation '"' s, 0⟩
      (.done (quotation '"' s).length)) ∧
    (∀ c : Context, c.Ready →
      (∀ s : String, readExpr c none (quotation '"' s) =
        (.ok (.constant (.string s) .string), c.cache)) ∧
      (∀ d : Char, readExpr c none (quotation '\'' (String.singleton d)) =
        (.ok (.constant (.char d) .char), c.cache)) ∧
      ∀ s : String, s.length ≠ 1 → ∀ blanks rest : List Char,
        (∀ d ∈ blanks, Text.isWhiteSpace d) → rest.head? ≠ some '\'' →
        readExpr c none (String.ofList (blanks ++ ((quotation '\'' s).toList ++ rest))) =
          (.error ⟨.invalidCharacterLiteral, blanks.length⟩, c.cache)) ∧
    (∀ (s : String) (n : Nat) (env : Env) (pos : Nat) (run : TokenRun) (cache : RecordCache),
      s.length ≠ 1 → ∃ stopped,
        operandAt n env ⟨⟨.stringLiteral, quotation '\'' s, pos⟩, run, cache⟩ =
          .error ⟨.invalidCharacterLiteral, pos⟩ stopped) ∧
    (∀ quote, isQuote quote → ∀ (s : String) (blanks rest : List Char),
      (∀ d ∈ blanks, Text.isWhiteSpace d) → rest.head? ≠ some quote →
      Token.scan (String.ofList (blanks ++ ((quotation quote s).toList ++ rest))) =
        .token ⟨.stringLiteral, quotation quote s, blanks.length⟩
          (scanFrom 0 (blanks.length + (quotation quote s).length) rest)) ∧
    ∀ text : String, ∀ t ∈ (Token.scan text).tokens, t.kind = .stringLiteral →
      ∃ quote s rest, isQuote quote ∧ t.text = quotation quote s ∧
        text.toList.drop t.pos = t.text.toList ++ rest ∧ rest.head? ≠ some quote := by
  have refused : ∀ {s : String} {pos : Nat}, s.length ≠ 1 →
      Token.Denotes ⟨.stringLiteral, quotation '\'' s, pos⟩
        (.error ⟨.invalidCharacterLiteral, pos⟩) := by
    intro s pos several
    rw [← Operand.ofQuoted_refused several]
    exact .quoted rfl
  refine ⟨fun s => ?_, fun c ready => ⟨fun s => ?_, fun d => ?_, ?_⟩, ?_, ?_, ?_⟩
  · have alone : Token.scan (String.ofList ([] ++ ((quotation '"' s).toList ++ []))) = _ :=
      scan_quotation (by decide) s (by simp) (by simp)
    simpa [scanFrom] using alone
  · exact readExpr_quotation ready (by decide) s (Operand.ofQuoted_text s)
  · exact readExpr_quotation ready (by decide) _ (Operand.ofQuoted_singleton d)
  · intro s several blanks rest blank ends
    have denotes : Token.Denotes
        ⟨.stringLiteral, String.ofList (quotation '\'' s).toList, blanks.length⟩
        (.error ⟨.invalidCharacterLiteral, blanks.length⟩) := by
      rw [String.ofList_toList]
      exact refused several
    exact readExpr_literal ready blank (lexeme_quotation (by decide) s ends) denotes (by simp)
  · intro s n env pos run cache several
    obtain ⟨operand, same⟩ := operandAt_eq n
    rw [same]
    have settles : Settles (unaryOf operand (expressionAt n) env)
        ⟨⟨.stringLiteral, quotation '\'' s, pos⟩, run, cache⟩
        (.error ⟨.invalidCharacterLiteral, pos⟩) := unaryOf_settles (refused several) (by simp)
    obtain ⟨stopped, stops, -⟩ := settles
    exact ⟨stopped, stops⟩
  · exact fun quote hq s blanks rest blank ends => scan_quotation hq s blank ends
  · intro text t ht kind
    obtain ⟨rest, here, lexeme⟩ := (cuts_scan text).piece t ht
    rw [kind] at lexeme
    obtain ⟨quote, s, hq, same, ends⟩ := lexeme.exists_quotation
    exact ⟨quote, s, rest, hq, String.toList_inj.mp same, by simpa using here, ends⟩

/-- Quotes at both ends of a text and one of the other kind in it come back. Two characters are
refused at the place of their first quote. -/
theorem quotations_read_back_mixed :
    let c : Context := ⟨[], [], defaultMaxDepth, RecordCache.empty none⟩
    c.Ready ∧
    readExpr c none "\"\"\"it's 😀\"\"\"" =
      (.ok (.constant (.string "\"it's 😀\"") .string), c.cache) ∧
    readExpr c none " 'it' + 1" = (.error ⟨.invalidCharacterLiteral, 1⟩, c.cache) := by
  intro c
  have ready : c.Ready := ⟨⟨_, rfl⟩, by decide⟩
  obtain ⟨texts, -, refuses⟩ := quotations_read_back.2.1 c ready
  have quoted : "\"\"\"it's 😀\"\"\"" = quotation '"' "\"it's 😀\"" := by decide
  have placed : " 'it' + 1" =
      String.ofList ([' '] ++ ((quotation '\'' "it").toList ++ [' ', '+', ' ', '1'])) := by decide
  refine ⟨ready, ?_, ?_⟩
  · rw [quoted]
    exact texts _
  · rw [placed]
    exact refuses "it" (by decide) [' '] _ (List.forall_mem_singleton.mpr rfl) (by decide)

end Source
end TypedExpr
