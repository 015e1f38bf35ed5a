import TypedExpr.Proofs.Characters
import TypedExpr.Proofs.Spelling
import Mathlib.Data.List.Chain

/-! # Words as tokens

A word of the language is read as one token, unless what follows it could be a part of it: another
name or number behind a name or a number, or a second sign. Laid out words are read as the run of
their tokens.
-/

namespace TypedExpr.Token

variable {c : Char} {cs rest : List Char}

/-! ## Characters that end a word -/

/-- The characters that signs are made of. -/
def signChars : List Char := "!%&()*+,-./:<=>?[]|".toList

/-- A character of this kind is no part of the name before it. -/
def endsIdentifier (c : Char) : Bool := !continuesIdentifier c

/-- A character of this kind is no part of the number before it. -/
def endsNumber (c : Char) : Bool :=
  !Text.isDigit c && !(c == '.' || c == 'e' || c == 'E' || c == 'f' || c == 'F')

theorem blank_ends (h : Text.isWhiteSpace c) :
    opensIdentifier c = false ∧ Text.isDigit c = false ∧ endsIdentifier c ∧ endsNumber c ∧
      c ∉ signChars := by
  have all : Text.blankCodes.all fun n =>
      !opensIdentifier (Char.ofNat n) && (!Text.isDigit (Char.ofNat n) &&
        (endsIdentifier (Char.ofNat n) && (endsNumber (Char.ofNat n) &&
          decide (Char.ofNat n ∉ signChars)))) := by decide +kernel
  have code := List.all_eq_true.mp all _ (Text.mem_blankCodes h)
  simpa only [Char.ofNat_toNat, Bool.and_eq_true, Bool.not_eq_true', decide_eq_true_eq] using code

theorem sign_ends (h : c ∈ signChars) :
    opensIdentifier c = false ∧ Text.isDigit c = false ∧ Text.isWhiteSpace c = false ∧
      endsIdentifier c := by
  have all : signChars.all fun c => !opensIdentifier c && (!Text.isDigit c &&
      (!Text.isWhiteSpace c && endsIdentifier c)) := by decide
  simpa only [Bool.and_eq_true, Bool.not_eq_true'] using List.all_eq_true.mp all c h

theorem digit_opens_none (h : Text.isDigit c) : opensIdentifier c = false := by
  have all : "0123456789".toList.all fun c => !opensIdentifier c := by decide
  simpa using List.all_eq_true.mp all c (Text.isDigit_iff_mem.mp h)

/-! ## Single words -/

theorem sign?_of_notMem (h : c ∉ signChars) : sign? c cs = none := by
  unfold sign?
  split <;> first | rfl | exact absurd (by decide) h

/-- A name or a number opens with no blank, no sign and no quote. -/
theorem wordy_opens (h : opensIdentifier c ∨ Text.isDigit c) :
    Text.isWhiteSpace c = false ∧ c ∉ signChars ∧ isQuote c = false := by
  have none : ∀ {P : Prop}, opensIdentifier c = false → Text.isDigit c = false → P := by
    intro P name digit
    simp [name, digit] at h
  refine ⟨?_, ?_, ?_⟩
  · cases blank : Text.isWhiteSpace c with
    | false => rfl
    | true => exact none (blank_ends blank).1 (blank_ends blank).2.1
  · intro sign
    exact none (sign_ends sign).1 (sign_ends sign).2.1
  · cases quote : isQuote c with
    | false => rfl
    | true =>
        simp only [isQuote, Bool.or_eq_true, beq_iff_eq] at quote
        rcases quote with rfl | rfl
        · exact none (by decide) (by decide)
        · exact none (by decide) (by decide)

/-- What has a property up to a place where the property ends is cut off there. -/
theorem takeWhile_exact {p : Char → Bool} (hcs : ∀ d ∈ cs, p d)
    (ends : ∀ d ∈ rest.head?, p d = false) : (cs ++ rest).takeWhile p = cs := by
  rw [List.takeWhile_append_of_pos hcs]
  cases rest with
  | nil => simp
  | cons d rest => simp [ends d rfl]

theorem lexeme_identifier (h : opensIdentifier c) (hcs : ∀ d ∈ cs, continuesIdentifier d)
    (ends : ∀ d ∈ rest.head?, endsIdentifier d) :
    lexeme c (cs ++ rest) = .ok (.identifier, cs.length + 1) := by
  obtain ⟨-, unsigned, unquoted⟩ := wordy_opens (.inl h)
  have whole : (cs ++ rest).takeWhile continuesIdentifier = cs := by
    refine takeWhile_exact hcs fun d hd => ?_
    simpa [endsIdentifier] using ends d hd
  simp [lexeme, sign?_of_notMem unsigned, unquoted, h, whole, Nat.add_comm]

theorem lexeme_number (h : Text.isDigit c) (hcs : ∀ d ∈ cs, Text.isDigit d)
    (ends : ∀ d ∈ rest.head?, endsNumber d) :
    lexeme c (cs ++ rest) = .ok (.integerLiteral, cs.length + 1) := by
  obtain ⟨-, unsigned, unquoted⟩ := wordy_opens (.inr h)
  have ends : ∀ d ∈ rest.head?, Text.isDigit d = false ∧
      d ≠ '.' ∧ d ≠ 'e' ∧ d ≠ 'E' ∧ d ≠ 'f' ∧ d ≠ 'F' := by
    intro d hd
    simpa [endsNumber, and_assoc] using ends d hd
  have whole : digitCount (c :: (cs ++ rest)) = cs.length + 1 := by
    rw [digitCount, List.takeWhile_cons_of_pos h, takeWhile_exact hcs fun d hd => (ends d hd).1]
    rfl
  have after : (c :: (cs ++ rest)).drop (cs.length + 1) = rest := by simp
  have plain : fractionPart rest = .absent ∧ exponentPart rest = .absent ∧
      suffixLength rest = 0 := by
    cases rest with
    | nil => exact ⟨rfl, rfl, rfl⟩
    | cons d rest =>
        obtain ⟨-, point, e, e', f, f'⟩ := ends d rfl
        simp [fractionPart, exponentPart, suffixLength, point, e, e', f, f']
  simp [lexeme, sign?_of_notMem unsigned, unquoted, digit_opens_none h, h, number, whole, after,
    plain]

/-- The kind of token that a word is by itself. -/
def kindOf (w : String) : TokenKind :=
  match w.toList with
  | [] => .endOfText
  | c :: cs =>
    match lexeme c cs with
    | .ok (kind, _) => kind
    | .error _ => .endOfText

/-- The signs that trees are written with. -/
def signs : List String :=
  ["(", ")", "?", ":", "+", "-", "*", "/", "%", "=", "<", ">", "!", "==", "!=", "<>", "<=", ">=",
    "&&", "||"]

/-- Digits alone. -/
def IsNumber (w : String) : Prop := w.toList ≠ [] ∧ ∀ c ∈ w.toList, Text.isDigit c

inductive IsWord (w : String) : Prop where
  | identifier (h : Source.IsIdentifier w)
  | number (h : IsNumber w)
  | sign (h : w ∈ signs)

/-- Before `rest`, the word is one token. -/
def Lexes (w : String) (rest : List Char) : Prop :=
  ∃ c cs, w.toList = c :: cs ∧ Text.isWhiteSpace c = false ∧
    lexeme c (cs ++ rest) = .ok (kindOf w, cs.length + 1)

/-- The character cannot be a part of the word before it. -/
structure EndsWord (w : String) (c : Char) : Prop where
  wordy : Source.isWordy w → endsIdentifier c ∧ endsNumber c
  sign : Source.isWordy w = false → w ≠ ")" → c ≠ '=' ∧ c ≠ '>'

variable {w v : String}

theorem isWordy_of_identifier (h : Source.IsIdentifier w) : Source.isWordy w := by
  obtain ⟨c, cs, hw, opens, -⟩ := h
  simp [Source.isWordy, hw, opens]

theorem isWordy_of_number (h : IsNumber w) : Source.isWordy w := by
  obtain ⟨nonempty, digits⟩ := h
  obtain ⟨c, cs, hw⟩ := List.exists_cons_of_ne_nil nonempty
  simp [Source.isWordy, hw, digits c (by simp [hw])]

theorem isWordy_of_sign (h : w ∈ signs) : Source.isWordy w = false := by
  have all : signs.all fun w => !Source.isWordy w := by decide
  simpa using List.all_eq_true.mp all w h

theorem IsWord.toList_ne_nil (h : IsWord w) : w.toList ≠ [] := by
  cases h with
  | identifier h =>
      obtain ⟨c, cs, hw, -⟩ := h
      simp [hw]
  | number h => exact h.1
  | sign h =>
      have all : signs.all fun w => !w.toList.isEmpty := by decide
      simpa using List.all_eq_true.mp all w h

/-- No sign but the closing parenthesis grows by what is no second sign. -/
private theorem lexes_sign (h : w ∈ signs)
    (ends : w ≠ ")" → ∀ c ∈ rest.head?, c ≠ '=' ∧ c ≠ '>') : Lexes w rest := by
  have pairs : ∀ {one two}, (∀ c ∈ rest.head?, c ≠ '=' ∧ c ≠ '>') →
      pair '=' one two rest = (one, 1) := by
    intro one two other
    cases rest with
    | nil => rfl
    | cons c rest => exact if_neg (other c rfl).1
  simp only [signs, List.mem_cons, List.not_mem_nil, or_false] at h
  rcases h with rfl | rfl | rfl | rfl | rfl | rfl | rfl | rfl | rfl | rfl | rfl | rfl | rfl | rfl |
    rfl | rfl | rfl | rfl | rfl | rfl
  -- signs that no other sign begins with need nothing about what follows
  all_goals try exact ⟨_, _, rfl, by decide, rfl⟩
  · refine ⟨_, _, rfl, by decide, ?_⟩
    exact congrArg Except.ok (pairs (ends (by decide)))
  · have ends := ends (by decide)
    cases rest with
    | nil => exact ⟨_, _, rfl, by decide, rfl⟩
    | cons c rest =>
        obtain ⟨equal, greater⟩ := ends c rfl
        have alone : lexeme '<' (c :: rest) = .ok (.lessThan, 1) := by
          simp [lexeme, sign?, equal, greater]
        exact ⟨_, _, rfl, by decide, alone⟩
  · refine ⟨_, _, rfl, by decide, ?_⟩
    exact congrArg Except.ok (pairs (ends (by decide)))
  · refine ⟨_, _, rfl, by decide, ?_⟩
    exact congrArg Except.ok (pairs (ends (by decide)))

theorem kindOf_identifier (h : Source.IsIdentifier w) : kindOf w = .identifier := by
  obtain ⟨c, cs, hw, opens, continues⟩ := h
  have alone : lexeme c (cs ++ []) = .ok (.identifier, cs.length + 1) :=
    lexeme_identifier opens continues (by simp)
  rw [List.append_nil] at alone
  simp only [kindOf, hw, alone]

theorem kindOf_number (h : IsNumber w) : kindOf w = .integerLiteral := by
  obtain ⟨nonempty, digits⟩ := h
  obtain ⟨c, cs, hw⟩ := List.exists_cons_of_ne_nil nonempty
  rw [hw] at digits
  obtain ⟨digit, digits⟩ := List.forall_mem_cons.mp digits
  have alone : lexeme c (cs ++ []) = .ok (.integerLiteral, cs.length + 1) :=
    lexeme_number digit digits (by simp)
  rw [List.append_nil] at alone
  simp only [kindOf, hw, alone]

theorem IsWord.lexes (h : IsWord w) (ends : ∀ c ∈ rest.head?, EndsWord w c) : Lexes w rest := by
  cases h with
  | identifier h =>
      have wordy := isWordy_of_identifier h
      have kind := kindOf_identifier h
      obtain ⟨c, cs, hw, opens, continues⟩ := h
      refine ⟨c, cs, hw, (wordy_opens (.inl opens)).1, ?_⟩
      rw [kind]
      exact lexeme_identifier opens continues fun d hd => ((ends d hd).wordy wordy).1
  | number h =>
      have wordy := isWordy_of_number h
      have kind := kindOf_number h
      obtain ⟨nonempty, digits⟩ := h
      obtain ⟨c, cs, hw⟩ := List.exists_cons_of_ne_nil nonempty
      rw [hw] at digits
      obtain ⟨digit, digits⟩ := List.forall_mem_cons.mp digits
      refine ⟨c, cs, hw, (wordy_opens (.inr digit)).1, ?_⟩
      rw [kind]
      exact lexeme_number digit digits fun d hd => ((ends d hd).wordy wordy).2
  | sign h =>
      refine lexes_sign h fun other d hd => ?_
      exact (ends d hd).sign (isWordy_of_sign h) other

/-! ## Runs of tokens -/

/-- What is left of a token that has been read is passed over. -/
theorem scanFrom_skip (pos : Nat) (cs rest : List Char) :
    scanFrom cs.length pos (cs ++ rest) = scanFrom 0 (pos + cs.length) rest := by
  induction cs generalizing pos with
  | nil => rfl
  | cons c cs ih =>
      simp only [List.length_cons, List.cons_append, scanFrom, ih]
      congr 1
      omega

theorem Lexes.scanFrom (h : Lexes w rest) (pos : Nat) :
    scanFrom 0 pos (w.toList ++ rest) =
      .token ⟨kindOf w, w, pos⟩ (Token.scanFrom 0 (pos + w.toList.length) rest) := by
  obtain ⟨c, cs, hw, visible, read⟩ := h
  have whole : String.ofList ((c :: (cs ++ rest)).take (cs.length + 1)) = w := by
    simp [← hw]
  have skipped := scanFrom_skip (pos + 1) cs rest
  rw [hw, List.cons_append, Token.scanFrom]
  simp only [visible, Bool.false_eq_true, if_false, read, whole, Nat.add_sub_cancel, skipped]
  simp [Nat.add_comm, Nat.add_left_comm]

theorem scanFrom_blanks {blanks : List Char} (h : ∀ c ∈ blanks, Text.isWhiteSpace c) (pos : Nat) :
    scanFrom 0 pos (blanks ++ rest) = scanFrom 0 (pos + blanks.length) rest := by
  induction blanks generalizing pos with
  | nil => rfl
  | cons c blanks ih =>
      obtain ⟨blank, blanks⟩ := List.forall_mem_cons.mp h
      simp only [List.cons_append, scanFrom, blank, if_true, ih blanks, List.length_cons]
      congr 1
      omega

/-- The token of a word, wherever it stands. -/
def Writes (w : String) (t : Token) : Prop := ∃ pos, t = ⟨kindOf w, w, pos⟩

/-- The run is that of the tokens of the words. -/
def Covers : List String → TokenRun → Prop
  | [], .done _ => True
  | w :: ws, .token t rest => Writes w t ∧ Covers ws rest
  | _, _ => False

/-- The word can stand at the end of an operand. -/
def Closes (w : String) : Prop := Source.isWordy w ∨ w = ")"

/-- The word can stand at the beginning of an operand. -/
def Opens (w : String) : Prop := Source.isWordy w ∨ w ∈ ["(", "-", "!"]

/-- Of two words in a row one is at the border of an operand. Two operators never meet. -/
def Meets (w v : String) : Prop := Closes w ∨ Opens v

private theorem not_second (h : c ∉ signChars) : c ≠ '=' ∧ c ≠ '>' := by
  constructor
  · rintro rfl
    exact h (by decide)
  · rintro rfl
    exact h (by decide)

private theorem EndsWord.of_blank (h : Text.isWhiteSpace c) : EndsWord w c := by
  obtain ⟨-, -, name, number, unsigned⟩ := blank_ends h
  exact ⟨fun _ => ⟨name, number⟩, fun _ _ => not_second unsigned⟩

/-- No sign opens with a point, and none at the beginning of an operand is a second sign. -/
private theorem sign_head (h : w ∈ signs) (hc : c ∈ w.toList.head?) :
    c ∈ signChars ∧ endsNumber c ∧ (w ∈ ["(", "-", "!"] → c ≠ '=' ∧ c ≠ '>') := by
  have all : signs.all fun w => w.toList.head?.all fun c =>
      decide (c ∈ signChars) && (endsNumber c &&
        decide (w ∈ ["(", "-", "!"] → c ≠ '=' ∧ c ≠ '>')) := by decide
  have one := List.all_eq_true.mp all w h
  rw [Option.mem_def.mp hc] at one
  simpa only [Option.all_some, Bool.and_eq_true, decide_eq_true_eq] using one

private theorem wordy_head (h : Source.isWordy w) (hc : c ∈ w.toList.head?) :
    Text.isWhiteSpace c = false ∧ c ∉ signChars := by
  rw [Source.isWordy, Option.mem_def.mp hc] at h
  obtain ⟨visible, unsigned, -⟩ := wordy_opens (by simpa using h)
  exact ⟨visible, unsigned⟩

/-- A word ends where a word that it meets begins. Between names and numbers this is no place. -/
private theorem EndsWord.of_meets (hv : IsWord v) (meets : Meets w v) (hc : c ∈ v.toList.head?)
    (apart : Source.isWordy w → Source.isWordy v → Text.isWhiteSpace c) : EndsWord w c := by
  cases wordy : Source.isWordy v with
  | true =>
      obtain ⟨visible, unsigned⟩ := wordy_head wordy hc
      refine ⟨fun name => ?_, fun _ _ => not_second unsigned⟩
      rw [apart name wordy] at visible
      cases visible
  | false =>
      have sign : v ∈ signs := by
        cases hv with
        | identifier h => exact absurd (isWordy_of_identifier h) (by simp [wordy])
        | number h => exact absurd (isWordy_of_number h) (by simp [wordy])
        | sign h => exact h
      obtain ⟨sign, number, opening⟩ := sign_head sign hc
      refine ⟨fun _ => ⟨(sign_ends sign).2.2.2, number⟩, fun other shut => ?_⟩
      rcases meets with (name | rfl) | (name | opens)
      · rw [other] at name
        cases name
      · exact absurd rfl shut
      · rw [wordy] at name
        cases name
      · exact opening opens

/-- Laid out words are read as the run of their tokens. -/
theorem covers_of_layout {ws : List String} {text : List Char} (h : ∀ w ∈ ws, IsWord w)
    (chain : ws.IsChain Meets) (layout : Source.Layout ws text) (pos : Nat) :
    Covers ws (scanFrom 0 pos text) := by
  induction layout generalizing pos with
  | @done blanks blank =>
      rw [← List.append_nil blanks, scanFrom_blanks blank]
      trivial
  | @word blanks w ws rest blank apart later ih =>
      obtain ⟨word, words⟩ := List.forall_mem_cons.mp h
      have ends : ∀ c ∈ rest.head?, EndsWord w c := by
        intro c hc
        cases later with
        | done blank => exact .of_blank (blank c (List.mem_of_mem_head? hc))
        | @word between v vs later blank _ _ =>
            obtain ⟨meets, -⟩ := List.isChain_cons_cons.mp chain
            cases between with
            | cons d between =>
                have same : d = c := by simpa using hc
                exact .of_blank (blank c (by simp [same]))
            | nil =>
                have next := words v (by simp)
                refine .of_meets next meets ?_ fun name wordy => ?_
                · obtain ⟨d, ds, hv⟩ := List.exists_cons_of_ne_nil next.toList_ne_nil
                  simpa [hv] using hc
                · have blank := apart name (by simpa using wordy)
                  rwa [Option.mem_def.mp hc] at blank
      have lexes := word.lexes ends
      rw [scanFrom_blanks blank, lexes.scanFrom]
      exact ⟨⟨_, rfl⟩, ih words chain.tail _⟩

end TypedExpr.Token
