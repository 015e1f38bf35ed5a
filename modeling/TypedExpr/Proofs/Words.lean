import TypedExpr.Operand.Operator
import TypedExpr.Proofs.Lexing

/-! # Words of trees as tokens

What the words of a tree are to a reader: the tokens of operators and of names, and none of another
meaning. Laid out, all words of a tree are read one by one, since of two in a row one begins or ends
an operand.
-/

namespace TypedExpr

open Token

variable {w : String} {t : Token}

/-! ## Operators and names -/

theorem Source.isIdentifier_of_word {word : String} (h : Text.sameIgnoringCase w word)
    (letters : word.toList.all fun c => decide (c.toLower ∈ Text.letters)) (nonempty : word ≠ "") :
    IsIdentifier w := by
  have same : w.toList.map Char.toLower = word.toList.map Char.toLower :=
    Text.sameIgnoringCase_iff.mp h
  have known : Text.letters.all fun c => opensIdentifier c && continuesIdentifier c := by decide
  have letter : ∀ c ∈ w.toList, opensIdentifier c ∧ continuesIdentifier c := by
    intro c hc
    have small : c.toLower ∈ word.toList.map Char.toLower := same ▸ List.mem_map_of_mem hc
    obtain ⟨d, hd, lower⟩ := List.mem_map.mp small
    have mem := List.all_eq_true.mp letters d hd
    rw [lower, decide_eq_true_eq] at mem
    simpa using List.all_eq_true.mp known c (Text.mem_letters_of_toLower mem)
  cases hw : w.toList with
  | nil =>
      rw [hw, List.map_nil, eq_comm, List.map_eq_nil_iff] at same
      exact absurd (String.toList_eq_nil_iff.mp same) nonempty
  | cons c cs =>
      rw [hw] at letter
      obtain ⟨first, rest⟩ := List.forall_mem_cons.mp letter
      exact ⟨c, cs, hw, first.1, fun d hd => (rest d hd).2⟩

/-- An identifier is known under the words that it is spelled like, and under no others. -/
theorem Token.isWord_of_word {word other : String} {pos : Nat}
    (h : Text.sameIgnoringCase w word) :
    isWord ⟨.identifier, w, pos⟩ other = Text.sameIgnoringCase word other := by
  have same : w.toList.map Char.toLower = word.toList.map Char.toLower :=
    Text.sameIgnoringCase_iff.mp h
  simp [isWord, Text.sameIgnoringCase, same]

namespace BinaryOp.SpelledBy

variable {op : BinaryOp}

private theorem isIdentifier {word : String} (hword : word ∈ op.word?)
    (h : Text.sameIgnoringCase w word) : Source.IsIdentifier w := by
  cases op <;> cases hword
  all_goals exact Source.isIdentifier_of_word h (by decide) (by decide)

/-- What is true of each sign of each operator is true of a sign of this one. -/
private theorem of_all {P : BinaryOp → String → Bool} (sign : w ∈ op.signs)
    (all : BinaryOp.all.all fun op => op.signs.all (P op)) : P op w := by
  have mem : op ∈ BinaryOp.all := by cases op <;> decide
  exact List.all_eq_true.mp (List.all_eq_true.mp all op mem) w sign

theorem isWord (h : op.SpelledBy w) : IsWord w := by
  rcases h with sign | ⟨word, hword, spelled⟩
  · have known := of_all (P := fun _ w => decide (w ∈ Token.signs)) sign (by decide)
    exact .sign (of_decide_eq_true known)
  · exact .identifier (isIdentifier hword spelled)

/-- The token of an operator is read as that operator. -/
theorem token (h : op.SpelledBy w) (ht : Writes w t) :
    t.precedence? = some op.precedence ∧ t.binaryOp? = some op ∧ t.kind ≠ .ampersand := by
  obtain ⟨pos, rfl⟩ := ht
  rcases h with sign | ⟨word, hword, spelled⟩
  · have known := of_all (P := fun op w =>
      decide (precedence? ⟨kindOf w, w, 0⟩ = some op.precedence ∧
        binaryOp? ⟨kindOf w, w, 0⟩ = some op ∧ kindOf w ≠ .ampersand)) sign (by decide)
    exact of_decide_eq_true known
  · rw [kindOf_identifier (isIdentifier hword spelled)]
    cases op <;> cases hword
    all_goals
      simp only [precedence?, binaryOp?, isWord_of_word spelled]
      decide

end BinaryOp.SpelledBy

namespace UnaryOp.SpelledBy

variable {op : UnaryOp}

private theorem isIdentifier_not (h : Text.sameIgnoringCase w "not") : Source.IsIdentifier w :=
  Source.isIdentifier_of_word h (by decide) (by decide)

theorem isWord (h : op.SpelledBy w) : IsWord w ∧ Opens w := by
  cases op with
  | negate =>
      cases h
      exact ⟨.sign (by decide), .inr (by decide)⟩
  | not =>
      rcases h with rfl | spelled
      · exact ⟨.sign (by decide), .inr (by decide)⟩
      · have name := isIdentifier_not spelled
        exact ⟨.identifier name, .inl (isWordy_of_identifier name)⟩

theorem token (h : op.SpelledBy w) (ht : Writes w t) :
    t.unaryOp? = some op ∧ (t.kind = .minus → op = .negate) := by
  obtain ⟨pos, rfl⟩ := ht
  cases op with
  | negate =>
      cases h
      exact ⟨rfl, fun _ => rfl⟩
  | not =>
      rcases id h with rfl | spelled
      · exact ⟨rfl, fun minus => by cases minus⟩
      · rw [kindOf_identifier (isIdentifier_not spelled)]
        simp only [unaryOp?, isWord_of_word spelled]
        decide

end UnaryOp.SpelledBy

namespace Source

/-- A name is no word with a meaning of its own. -/
theorem IsName.token (h : IsName w) (ht : Writes w t) :
    t.kind = .identifier ∧ t.text = w ∧ ∀ word ∈ reserved, t.isWord word = false := by
  obtain ⟨pos, rfl⟩ := ht
  refine ⟨kindOf_identifier h.identifier, rfl, fun word reserved => ?_⟩
  simp [isWord, h.free word reserved]

/-! ## Words between which operands begin and end -/

/-- Words that an operand can be written with: each is one token wherever the next one begins. -/
structure Phrase (ws : List String) : Prop where
  words : ∀ w ∈ ws, IsWord w
  chain : ws.IsChain Meets
  opens : ∃ w ∈ ws.head?, Opens w
  closes : ∃ w ∈ ws.getLast?, Closes w

namespace Phrase

variable {w : String} {ws vs : List String}

theorem single (hw : IsWord w) (wordy : isWordy w) : Phrase [w] :=
  ⟨by simpa using hw, .singleton w, ⟨w, rfl, .inl wordy⟩, ⟨w, rfl, .inl wordy⟩⟩

/-- Before an operand a word meets its beginning. -/
private theorem meets_head (h : Phrase ws) : ∀ v ∈ ws.head?, Meets w v := by
  obtain ⟨u, hu, opens⟩ := h.opens
  intro v hv
  cases Option.some.inj (hu.symm.trans hv)
  exact .inr opens

/-- Behind an operand a word meets its end. -/
private theorem last_meets (h : Phrase ws) : ∀ v ∈ ws.getLast?, Meets v w := by
  obtain ⟨u, hu, closes⟩ := h.closes
  intro v hv
  cases Option.some.inj (hu.symm.trans hv)
  exact .inl closes

theorem cons (hw : IsWord w) (opens : Opens w) (h : Phrase ws) : Phrase (w :: ws) := by
  obtain ⟨u, hu, closes⟩ := h.closes
  refine ⟨List.forall_mem_cons.mpr ⟨hw, h.words⟩, List.isChain_cons.mpr ⟨h.meets_head, h.chain⟩,
    ⟨w, rfl, opens⟩, ⟨u, ?_, closes⟩⟩
  rw [List.getLast?_cons, Option.mem_def.mp hu]
  rfl

theorem close (h : Phrase ws) : Phrase (ws ++ [")"]) := by
  obtain ⟨u, hu, opens⟩ := h.opens
  refine ⟨?_, ?_, ⟨u, ?_, opens⟩, ⟨")", by simp, .inr rfl⟩⟩
  · intro w hw
    rcases List.mem_append.mp hw with hw | hw
    · exact h.words w hw
    · cases List.mem_singleton.mp hw
      exact .sign (by decide)
  · refine List.isChain_append.mpr ⟨h.chain, .singleton _, fun x hx y hy => ?_⟩
    exact h.last_meets x hx
  · rw [List.head?_append, Option.mem_def.mp hu]
    rfl

/-- A word between two operands. -/
theorem join (hl : Phrase vs) (hw : IsWord w) (hr : Phrase ws) : Phrase (vs ++ w :: ws) := by
  obtain ⟨u, hu, opens⟩ := hl.opens
  obtain ⟨v, hv, closes⟩ := hr.closes
  refine ⟨?_, ?_, ⟨u, ?_, opens⟩, ⟨v, ?_, closes⟩⟩
  · intro x hx
    rcases List.mem_append.mp hx with hx | hx
    · exact hl.words x hx
    · exact List.forall_mem_cons.mpr ⟨hw, hr.words⟩ x hx
  · refine List.isChain_append.mpr ⟨hl.chain, List.isChain_cons.mpr ⟨hr.meets_head, hr.chain⟩, ?_⟩
    intro x hx y hy
    exact hl.last_meets x hx
  · rw [List.head?_append, Option.mem_def.mp hu]
    rfl
  · rw [List.getLast?_append, List.getLast?_cons, Option.mem_def.mp hv]
    rfl

end Phrase

variable {params : List Parameter} {level : Level} {e : Expr} {ty : Ty} {ws : List String}

/-- The words of a tree are one by one names, numbers and signs, and of two in a row one begins or
ends an operand. -/
theorem Spells.phrase (h : Spells level e ws) (he : Elementary params e ty) : Phrase ws := by
  induction h generalizing ty with
  | parameter =>
      cases he with
      | parameter _ name _ =>
          exact .single (.identifier name.identifier) (isWordy_of_identifier name.identifier)
  | literal read _ =>
      have number : IsNumber _ := Read.digits_of_nat? read
      exact .single (.number number) (isWordy_of_number number)
  | parentheses _ ih => exact .cons (.sign (by decide)) (.inr (by decide)) (ih he).close
  | unary hw _ ih =>
      obtain ⟨word, opens⟩ := hw.isWord
      cases he with
      | negate he _ => exact .cons word opens (ih he)
      | not he => exact .cons word opens (ih he)
  | binary hw _ _ ihl ihr =>
      cases he with
      | binary _ hl hr => exact .join (ihl hl) hw.isWord (ihr hr)
  | conditional _ _ _ iht iha ihb =>
      cases he with
      | conditional ht ha hb =>
          exact .join (iht ht) (.sign (by decide)) (.join (iha ha) (.sign (by decide)) (ihb hb))
  | ofTighter _ ih => exact ih he
  | ofJoined _ ih => exact ih he

/-- A tree that is written out is read as the tokens of its words. -/
theorem Spells.covers {text : String} (h : Spells level e ws) (he : Elementary params e ty)
    (layout : Layout ws text.toList) : Covers ws (Token.scan text) := by
  obtain ⟨words, chain, -, -⟩ := h.phrase he
  exact covers_of_layout words chain layout 0

end Source
end TypedExpr
