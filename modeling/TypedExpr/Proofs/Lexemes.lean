import TypedExpr.Proofs.Lexing
import Mathlib.Data.List.TakeWhile

/-! # The grammar of tokens

Which characters are a token of which kind, and what may not stand behind them because it would
belong to the token too. Each visible beginning of a text is a token by this grammar or breaks one
of its rules at a certain place, and the reader of single tokens answers accordingly.
-/

namespace TypedExpr.Token

/-! ## Parts of tokens -/

/-- The text does not go on with a character of the class. -/
def Breaks (p : Char → Bool) (rest : List Char) : Prop := ∀ d ∈ rest.head?, p d = false

/-- Digits, at least one. -/
def IsDigits (cs : List Char) : Prop := cs ≠ [] ∧ ∀ c ∈ cs, Text.isDigit c

/-- A point with digits, or nothing. -/
inductive Fraction : List Char → Prop where
  | absent : Fraction []
  | present {digits} (h : IsDigits digits) : Fraction ('.' :: digits)

/-- The beginning of an exponent: its mark with an optional sign. -/
inductive ExponentMark : List Char → Prop where
  | unsigned {e} (h : e ∈ ['e', 'E']) : ExponentMark [e]
  | signed {e sign} (h : e ∈ ['e', 'E']) (hs : sign ∈ ['+', '-']) : ExponentMark [e, sign]

/-- A mark with digits, or nothing. -/
inductive Exponent : List Char → Prop where
  | absent : Exponent []
  | present {mark digits} (hm : ExponentMark mark) (h : IsDigits digits) :
      Exponent (mark ++ digits)

/-- The letter that makes a number a single, or nothing. -/
inductive Suffix : List Char → Prop where
  | absent : Suffix []
  | present {f} (h : f ∈ ['f', 'F']) : Suffix [f]

/-- What follows is no further character of a number with these parts behind its first digits. -/
def EndsNumber (fraction exponent suffix rest : List Char) : Prop :=
  suffix = [] → ∀ d ∈ rest.head?, Text.isDigit d = false ∧ d ∉ ['f', 'F'] ∧
    (exponent = [] → d ∉ ['e', 'E'] ∧ (fraction = [] → d ≠ '.'))

/-- Up to the closing quote. The quote itself stands in between only in pairs. -/
inductive Quoted (quote : Char) : List Char → Prop where
  | close : Quoted quote [quote]
  | other {c cs} (h : c ≠ quote) (later : Quoted quote cs) : Quoted quote (c :: cs)
  | pair {cs} (later : Quoted quote cs) : Quoted quote (quote :: quote :: cs)

/-- The quote stands here only in pairs, so that none closes. -/
inductive Unclosed (quote : Char) : List Char → Prop where
  | ended : Unclosed quote []
  | other {c cs} (h : c ≠ quote) (later : Unclosed quote cs) : Unclosed quote (c :: cs)
  | pair {cs} (later : Unclosed quote cs) : Unclosed quote (quote :: quote :: cs)

/-- All signs with their kinds. -/
def signTable : List (List Char × TokenKind) :=
  [(['!'], .exclamation), (['!', '='], .exclamationEqual), (['%'], .percent), (['&'], .ampersand),
    (['&', '&'], .doubleAmpersand), (['('], .openParen), ([')'], .closeParen), (['*'], .asterisk),
    (['+'], .plus), ([','], .comma), (['-'], .minus), (['.'], .dot), (['/'], .slash),
    ([':'], .colon), (['<'], .lessThan), (['<', '='], .lessThanEqual), (['<', '>'], .lessGreater),
    (['='], .equal), (['=', '='], .doubleEqual), (['>'], .greaterThan),
    (['>', '='], .greaterThanEqual), (['?'], .question), (['['], .openBracket),
    ([']'], .closeBracket), (['|'], .bar), (['|', '|'], .doubleBar)]

/-! ## Tokens and faults -/

/-- Before `rest` the word is a token of the kind, and goes as far as its kind allows. -/
inductive Lexeme : TokenKind → (word rest : List Char) → Prop where
  | identifier {c cs rest} (opens : opensIdentifier c) (continues : ∀ d ∈ cs, continuesIdentifier d)
      (ends : Breaks continuesIdentifier rest) : Lexeme .identifier (c :: cs) rest
  | integer {digits rest} (h : IsDigits digits) (ends : EndsNumber [] [] [] rest) :
      Lexeme .integerLiteral digits rest
  | real {whole fraction exponent suffix rest} (hw : IsDigits whole) (hf : Fraction fraction)
      (he : Exponent exponent) (hs : Suffix suffix)
      (some : fraction ≠ [] ∨ exponent ≠ [] ∨ suffix ≠ [])
      (ends : EndsNumber fraction exponent suffix rest) :
      Lexeme .realLiteral (whole ++ (fraction ++ (exponent ++ suffix))) rest
  | quoted {quote cs rest} (hq : isQuote quote) (h : Quoted quote cs)
      (ends : Breaks (· == quote) rest) : Lexeme .stringLiteral (quote :: cs) rest
  | sign {kind word rest} (h : (word, kind) ∈ signTable)
      (ends : ∀ d ∈ rest.head?, ∀ longer, (word ++ [d], longer) ∉ signTable) :
      Lexeme kind word rest

/-- The text begins with no token: the problem shows so many characters behind its beginning. -/
inductive Fault : Problem → Nat → List Char → Prop where
  /-- No token begins with the character. -/
  | character {c rest} (visible : Text.isWhiteSpace c = false)
      (none : ∀ kind word, ¬ Lexeme kind (c :: word) []) : Fault (.invalidCharacter c) 0 (c :: rest)
  /-- No digit stands behind the point. -/
  | fraction {whole rest} (hw : IsDigits whole) (missing : Breaks Text.isDigit rest) :
      Fault .digitExpected (whole.length + 1) (whole ++ '.' :: rest)
  /-- No digit stands behind the mark of an exponent and its sign. -/
  | exponent {whole fraction mark rest} (hw : IsDigits whole) (hf : Fraction fraction)
      (hm : ExponentMark mark)
      (sign : mark.length = 1 → Breaks (fun d => d == '+' || d == '-') rest)
      (missing : Breaks Text.isDigit rest) :
      Fault .digitExpected (whole ++ (fraction ++ mark)).length
        (whole ++ (fraction ++ (mark ++ rest)))
  /-- The text ends before the literal does. -/
  | quoted {quote cs} (hq : isQuote quote) (h : Unclosed quote cs) :
      Fault .unterminatedString (quote :: cs).length (quote :: cs)

variable {c : Char} {cs rest word digits : List Char} {kind : TokenKind} {p : Char → Bool}

/-! ## What follows -/

@[simp] theorem breaks_nil : Breaks p [] := by simp [Breaks]

@[simp] theorem breaks_cons : Breaks p (c :: cs) ↔ p c = false := by simp [Breaks]

/-- A text goes on as long as its characters are of a class. -/
theorem exists_takeWhile (p : Char → Bool) (cs : List Char) :
    ∃ word rest, cs = word ++ rest ∧ (∀ d ∈ word, p d) ∧ Breaks p rest := by
  refine ⟨cs.takeWhile p, cs.dropWhile p, List.takeWhile_append_dropWhile.symm, ?_, ?_⟩
  · intro d hd
    exact List.mem_takeWhile_imp hd
  · intro d hd
    have first := List.head?_dropWhile_not p cs
    rw [Option.mem_def.mp hd] at first
    simpa using first

theorem digitCount_append (h : ∀ d ∈ digits, Text.isDigit d) (ends : Breaks Text.isDigit rest) :
    digitCount (digits ++ rest) = digits.length := by
  rw [digitCount, takeWhile_exact h ends]

theorem digitCount_of_breaks (ends : Breaks Text.isDigit rest) : digitCount rest = 0 := by
  change digitCount ([] ++ rest) = 0
  exact digitCount_append (by simp) ends

theorem IsDigits.length_ne_zero (h : IsDigits digits) : digits.length ≠ 0 := by
  simpa using h.1

/-- A digit is no other character of a number. -/
theorem digit_plain (h : Text.isDigit c) :
    c ≠ '.' ∧ c ∉ ['e', 'E'] ∧ c ∉ ['f', 'F'] ∧ c ≠ '+' ∧ c ≠ '-' := by
  have all : "0123456789".toList.all fun c =>
      decide (c ≠ '.' ∧ c ∉ ['e', 'E'] ∧ c ∉ ['f', 'F'] ∧ c ≠ '+' ∧ c ≠ '-') := by decide
  exact of_decide_eq_true (List.all_eq_true.mp all c (Text.isDigit_iff_mem.mp h))

theorem IsDigits.exists_cons (h : IsDigits digits) :
    ∃ d ds, digits = d :: ds ∧ Text.isDigit d ∧ ∀ c ∈ ds, Text.isDigit c := by
  obtain ⟨nonempty, digits⟩ := h
  obtain ⟨d, ds, rfl⟩ := List.exists_cons_of_ne_nil nonempty
  exact ⟨d, ds, rfl, List.forall_mem_cons.mp digits⟩

/-! ## Numbers -/

theorem fractionPart_absent (h : rest.head? ≠ some '.') : fractionPart rest = .absent := by
  cases rest with
  | nil => rfl
  | cons d rest =>
      have other : d ≠ '.' := by simpa using h
      simp [fractionPart, other]

theorem fractionPart_present (h : IsDigits digits) (ends : Breaks Text.isDigit rest) :
    fractionPart ('.' :: (digits ++ rest)) = .present (digits.length + 1) := by
  simp [fractionPart, digitCount_append h.2 ends, h.1, Nat.add_comm]

theorem fractionPart_noDigit (missing : Breaks Text.isDigit rest) :
    fractionPart ('.' :: rest) = .noDigit 1 := by
  simp [fractionPart, digitCount_of_breaks missing]

theorem exponentPart_absent (h : ∀ d ∈ rest.head?, d ∉ ['e', 'E']) :
    exponentPart rest = .absent := by
  cases rest with
  | nil => rfl
  | cons d rest =>
      have other : ¬ (d = 'e' ∨ d = 'E') := by simpa using h d rfl
      simp [exponentPart, other]

/-- Behind the mark of an exponent the digits are counted. -/
private theorem exponentPart_mark {mark : List Char} (hm : ExponentMark mark)
    (sign : mark.length = 1 → Breaks (fun d => d == '+' || d == '-') rest) :
    exponentPart (mark ++ rest) =
      if digitCount rest = 0 then .noDigit mark.length
      else .present (mark.length + digitCount rest) := by
  cases hm with
  | @unsigned e h =>
      have plain := sign rfl
      have mark : e = 'e' ∨ e = 'E' := by simpa using h
      cases rest with
      | nil => simp [exponentPart, mark]
      | cons d rest =>
          have other : d ≠ '+' ∧ d ≠ '-' := by simpa using plain
          simp [exponentPart, mark, other]
  | @signed e s h hs =>
      have mark : e = 'e' ∨ e = 'E' := by simpa using h
      have sign : s = '+' ∨ s = '-' := by simpa using hs
      rcases sign with rfl | rfl <;> simp [exponentPart, mark]

theorem exponentPart_present {mark : List Char} (hm : ExponentMark mark) (h : IsDigits digits)
    (ends : Breaks Text.isDigit rest) :
    exponentPart (mark ++ (digits ++ rest)) = .present (mark.length + digits.length) := by
  have unsigned : Breaks (fun d => d == '+' || d == '-') (digits ++ rest) := by
    obtain ⟨d, ds, rfl, digit, -⟩ := h.exists_cons
    simpa using (digit_plain digit).2.2.2
  rw [exponentPart_mark hm fun _ => unsigned, digitCount_append h.2 ends, if_neg h.length_ne_zero]

theorem exponentPart_noDigit {mark : List Char} (hm : ExponentMark mark)
    (sign : mark.length = 1 → Breaks (fun d => d == '+' || d == '-') rest)
    (missing : Breaks Text.isDigit rest) :
    exponentPart (mark ++ rest) = .noDigit mark.length := by
  rw [exponentPart_mark hm sign, digitCount_of_breaks missing, if_pos rfl]

theorem suffixLength_append {suffix : List Char} (h : Suffix suffix)
    (ends : suffix = [] → ∀ d ∈ rest.head?, d ∉ ['f', 'F']) :
    suffixLength (suffix ++ rest) = suffix.length := by
  cases h with
  | absent =>
      cases rest with
      | nil => rfl
      | cons d rest =>
          have other : d ≠ 'f' ∧ d ≠ 'F' := by simpa using ends rfl d rfl
          simp [suffixLength, other]
  | @present f h =>
      have letter : f = 'f' ∨ f = 'F' := by simpa using h
      rcases letter with rfl | rfl <;> rfl

section Parts

variable {whole fraction exponent suffix : List Char}

/-- The mark of an exponent begins with its letter. -/
private theorem mark_head {mark : List Char} (hm : ExponentMark mark) (cs : List Char) :
    ∀ d ∈ (mark ++ cs).head?, Text.isDigit d = false ∧ d ≠ '.' := by
  intro d hd
  have letters : ∀ e ∈ ['e', 'E'], Text.isDigit e = false ∧ e ≠ '.' := by simp [Text.isDigit]
  cases hm with
  | unsigned he | signed he =>
      obtain rfl := by simpa using hd
      exact letters _ he

/-- Behind the exponent no digit stands, and no part that is missing before it. -/
private theorem suffix_head (hs : Suffix suffix)
    (ends : EndsNumber fraction exponent suffix rest) :
    ∀ d ∈ (suffix ++ rest).head?, Text.isDigit d = false ∧
      (exponent = [] → d ∉ ['e', 'E'] ∧ (fraction = [] → d ≠ '.')) := by
  intro d hd
  cases hs with
  | absent =>
      obtain ⟨noDigit, -, other⟩ := ends rfl d hd
      exact ⟨noDigit, other⟩
  | @present f h =>
      have letters : ∀ f ∈ ['f', 'F'], Text.isDigit f = false ∧ f ∉ ['e', 'E'] ∧ f ≠ '.' := by
        simp [Text.isDigit]
      obtain rfl : f = d := by simpa using hd
      obtain ⟨noDigit, noMark, noPoint⟩ := letters f h
      exact ⟨noDigit, fun _ => ⟨noMark, fun _ => noPoint⟩⟩

private theorem exponent_head (he : Exponent exponent) (hs : Suffix suffix)
    (ends : EndsNumber fraction exponent suffix rest) :
    ∀ d ∈ (exponent ++ (suffix ++ rest)).head?, Text.isDigit d = false ∧
      (fraction = [] → d ≠ '.') := by
  intro d hd
  cases he with
  | absent =>
      obtain ⟨noDigit, other⟩ := suffix_head hs ends d hd
      exact ⟨noDigit, (other rfl).2⟩
  | @present mark digits hm h =>
      rw [List.append_assoc] at hd
      obtain ⟨noDigit, noPoint⟩ := mark_head hm _ d hd
      exact ⟨noDigit, fun _ => noPoint⟩

/-- A number is as long as its parts, of which an absent one has no length. -/
private theorem number_of_lengths {w f e s : Nat} (whole : digitCount cs = w)
    (fraction : fractionPart (cs.drop w) = if f = 0 then .absent else .present f)
    (exponent : exponentPart (cs.drop (w + f)) = if e = 0 then .absent else .present e)
    (suffix : suffixLength (cs.drop (w + f + e)) = s) (one : s ≤ 1) :
    number cs = .ok (if f = 0 ∧ e = 0 ∧ s = 0 then .integerLiteral else .realLiteral,
      w + f + e + s) := by
  have letter : s = 1 ↔ s ≠ 0 := by omega
  by_cases noFraction : f = 0 <;> by_cases noExponent : e = 0
  · subst noFraction noExponent
    simp only [Nat.add_zero, if_true] at fraction exponent suffix
    simp [number, whole, fraction, exponent, suffix, letter]
  all_goals
    simp_all [number]

/-- A number with these parts is read as far as they go. -/
theorem number_parts (hw : IsDigits whole) (hf : Fraction fraction) (he : Exponent exponent)
    (hs : Suffix suffix) (ends : EndsNumber fraction exponent suffix rest) :
    number (whole ++ (fraction ++ (exponent ++ (suffix ++ rest)))) =
      .ok (if fraction = [] ∧ exponent = [] ∧ suffix = [] then .integerLiteral else .realLiteral,
        (whole ++ (fraction ++ (exponent ++ suffix))).length) := by
  have exponentBreaks : Breaks Text.isDigit (exponent ++ (suffix ++ rest)) :=
    fun d hd => (exponent_head he hs ends d hd).1
  have suffixBreaks : Breaks Text.isDigit (suffix ++ rest) :=
    fun d hd => (suffix_head hs ends d hd).1
  have wholeRead : digitCount (whole ++ (fraction ++ (exponent ++ (suffix ++ rest)))) =
      whole.length := by
    refine digitCount_append hw.2 ?_
    cases hf with
    | absent => exact exponentBreaks
    | present => exact breaks_cons.mpr (by decide)
  have fractionRead : fractionPart (fraction ++ (exponent ++ (suffix ++ rest))) =
      if fraction.length = 0 then .absent else .present fraction.length := by
    cases hf with
    | absent =>
        exact fractionPart_absent fun point => (exponent_head he hs ends '.' point).2 rfl rfl
    | present h => exact fractionPart_present h exponentBreaks
  have exponentRead : exponentPart (exponent ++ (suffix ++ rest)) =
      if exponent.length = 0 then .absent else .present exponent.length := by
    cases he with
    | absent => exact exponentPart_absent fun d hd => ((suffix_head hs ends d hd).2 rfl).1
    | present hm h =>
        rw [List.append_assoc, exponentPart_present hm h suffixBreaks, if_neg (by simp [h.1]),
          List.length_append]
  have suffixRead : suffixLength (suffix ++ rest) = suffix.length :=
    suffixLength_append hs fun none d hd => (ends none d hd).2.1
  have one : suffix.length ≤ 1 := by cases hs <;> simp
  refine (number_of_lengths (f := fraction.length) (e := exponent.length) wholeRead ?_ ?_ ?_
    one).trans ?_
  · rw [List.drop_left, fractionRead]
  · rw [← List.append_assoc whole, List.drop_left' (by simp), exponentRead]
  · rw [← List.append_assoc whole, ← List.append_assoc (whole ++ fraction),
      List.drop_left' (by simp [Nat.add_assoc]), suffixRead]
  · simp [Nat.add_assoc]

/-- A number that breaks off behind its point is refused there. -/
theorem number_fraction_fault (hw : IsDigits whole) (missing : Breaks Text.isDigit rest) :
    number (whole ++ '.' :: rest) = .error (.digitExpected, whole.length + 1) := by
  have wholeRead : digitCount (whole ++ '.' :: rest) = whole.length :=
    digitCount_append hw.2 (breaks_cons.mpr (by decide))
  simp [number, wholeRead, fractionPart_noDigit missing]

/-- A number that breaks off behind the mark of its exponent is refused there. -/
theorem number_exponent_fault {mark : List Char} (hw : IsDigits whole) (hf : Fraction fraction)
    (hm : ExponentMark mark)
    (sign : mark.length = 1 → Breaks (fun d => d == '+' || d == '-') rest)
    (missing : Breaks Text.isDigit rest) :
    number (whole ++ (fraction ++ (mark ++ rest))) =
      .error (.digitExpected, (whole ++ (fraction ++ mark)).length) := by
  have marks := mark_head hm rest
  have markBreaks : Breaks Text.isDigit (mark ++ rest) := fun d hd => (marks d hd).1
  have refused := exponentPart_noDigit hm sign missing
  cases hf with
  | absent =>
      have wholeRead : digitCount (whole ++ ([] ++ (mark ++ rest))) = whole.length :=
        digitCount_append hw.2 markBreaks
      have noFraction : fractionPart (mark ++ rest) = .absent :=
        fractionPart_absent fun point => (marks '.' point).2 rfl
      simp only [List.nil_append] at wholeRead ⊢
      simp [number, wholeRead, noFraction, refused]
  | @present digits h =>
      have wholeRead : digitCount (whole ++ ('.' :: digits ++ (mark ++ rest))) = whole.length :=
        digitCount_append hw.2 (breaks_cons.mpr (by decide))
      have fractionRead : fractionPart ((whole ++ ('.' :: digits ++ (mark ++ rest))).drop
          whole.length) = .present (digits.length + 1) := by
        rw [List.drop_left]
        exact fractionPart_present h markBreaks
      have exponentRead : exponentPart ((whole ++ ('.' :: digits ++ (mark ++ rest))).drop
          (whole.length + (digits.length + 1))) = .noDigit mark.length := by
        rw [← List.append_assoc whole, List.drop_left' (by simp), refused]
      simp only [number, wholeRead, fractionRead, exponentRead, List.length_append,
        List.length_cons]
      congr 2
      omega

end Parts

/-! ## Quoted text -/

variable {quote : Char}

theorem quotedLength?_append (h : Quoted quote cs) (ends : Breaks (· == quote) rest) :
    quotedLength? quote (cs ++ rest) = some cs.length := by
  induction h with
  | close =>
      cases rest with
      | nil => simp [quotedLength?]
      | cons d rest =>
          have other : d ≠ quote := by simpa using ends
          simp [quotedLength?, other]
  | other h _ ih =>
      rw [List.cons_append, quotedLength?.eq_def]
      simp [h, ih]
  | pair _ ih => simp [quotedLength?, ih]

theorem quotedLength?_unclosed (h : Unclosed quote cs) : quotedLength? quote cs = none := by
  induction h with
  | ended => rfl
  | other h _ ih =>
      rw [quotedLength?.eq_def]
      simp [h, ih]
  | pair _ ih => simp [quotedLength?, ih]

/-- Behind an opening quote the literal is closed, or it goes on to the end. -/
theorem exists_quoted (quote : Char) (cs : List Char) :
    (∃ word rest, cs = word ++ rest ∧ Quoted quote word ∧ Breaks (· == quote) rest) ∨
      Unclosed quote cs := by
  fun_induction quotedLength? quote cs with
  | case1 => exact .inr .ended
  | case2 rest ih =>
      rcases ih with ⟨word, rest, rfl, h, ends⟩ | h
      · exact .inl ⟨_, rest, rfl, .pair h, ends⟩
      · exact .inr (.pair h)
  | case3 d rest other =>
      exact .inl ⟨[quote], d :: rest, rfl, .close, breaks_cons.mpr (by simpa using other)⟩
  | case4 => exact .inl ⟨[quote], [], rfl, .close, breaks_nil⟩
  | case5 c cs other ih =>
      rcases ih with ⟨word, rest, rfl, h, ends⟩ | h
      · exact .inl ⟨_, rest, rfl, .other other h, ends⟩
      · exact .inr (.other other h)

/-! ## Signs -/

/-- A sign opens with a character for signs. -/
theorem sign_shape (h : (word, kind) ∈ signTable) :
    ∃ c cs, word = c :: cs ∧ c ∈ signChars ∧ cs.length ≤ 1 := by
  have all : signTable.all fun entry => entry.1.head?.any fun c =>
      decide (c ∈ signChars ∧ entry.1.length ≤ 2) := by decide
  have one := List.all_eq_true.mp all _ h
  cases word with
  | nil => cases one
  | cons c cs =>
      obtain ⟨sign, short⟩ : c ∈ signChars ∧ (c :: cs).length ≤ 2 := by simpa using one
      exact ⟨c, cs, rfl, sign, by simpa using short⟩

/-- A sign is made of characters for signs. -/
theorem sign_chars (h : (word, kind) ∈ signTable) : ∀ c ∈ word, c ∈ signChars := by
  have all : signTable.all fun entry => entry.1.all fun c => decide (c ∈ signChars) := by decide
  intro c mem
  exact of_decide_eq_true (List.all_eq_true.mp (List.all_eq_true.mp all _ h) c mem)

private theorem pair_one {second : Char} {one two : TokenKind}
    (h : ∀ d ∈ rest.head?, d ≠ second) : pair second one two rest = (one, 1) := by
  cases rest with
  | nil => rfl
  | cons d rest => exact if_neg (h d rfl)

/-- A sign is read as far as it goes. -/
theorem sign?_append (h : (c :: cs, kind) ∈ signTable)
    (ends : ∀ d ∈ rest.head?, ∀ longer, (c :: cs ++ [d], longer) ∉ signTable) :
    sign? c (cs ++ rest) = some (kind, cs.length + 1) := by
  -- where a longer sign exists, what follows is not its second character
  have alone : ∀ {second one two}, (c :: cs ++ [second], two) ∈ signTable →
      some (pair second one two rest) = some (one, 1) := by
    intro second one two h
    refine congrArg some (pair_one fun d hd same => ends d hd two ?_)
    rwa [same]
  simp only [signTable, List.mem_cons, List.not_mem_nil, or_false, Prod.mk.injEq, List.cons.injEq]
    at h
  rcases h with h | h | h | h | h | h | h | h | h | h | h | h | h | h | h | h | h | h | h | h | h |
    h | h | h | h | h
  all_goals
    obtain ⟨⟨rfl, rfl⟩, rfl⟩ := h
    try first
      | rfl
      | exact alone (by decide)
  cases rest with
  | nil => rfl
  | cons d rest =>
      have equal : d ≠ '=' := by
        rintro rfl
        exact ends '=' rfl .lessThanEqual (by decide)
      have greater : d ≠ '>' := by
        rintro rfl
        exact ends '>' rfl .lessGreater (by decide)
      simp [sign?, equal, greater]

/-- Behind a character for signs a sign ends. -/
theorem exists_sign (h : c ∈ signChars) (cs : List Char) :
    ∃ kind word rest, c :: cs = word ++ rest ∧ (word, kind) ∈ signTable ∧
      ∀ d ∈ rest.head?, ∀ longer, (word ++ [d], longer) ∉ signTable := by
  have single : ∃ kind, ([c], kind) ∈ signTable := by
    have all : signChars.all fun c => signTable.any fun entry => entry.1 == [c] := by decide
    obtain ⟨entry, mem, same⟩ := List.any_eq_true.mp (List.all_eq_true.mp all c h)
    exact ⟨entry.2, by rwa [← eq_of_beq same]⟩
  by_cases double : ∃ d ∈ cs.head?, ∃ kind, ([c, d], kind) ∈ signTable
  · obtain ⟨d, hd, kind, mem⟩ := double
    obtain ⟨rest, rfl⟩ := List.head?_eq_some_iff.mp hd
    refine ⟨kind, [c, d], rest, rfl, mem, fun e _ longer mem => ?_⟩
    obtain ⟨_, _, same, -, short⟩ := sign_shape mem
    cases same
    simp at short
  · obtain ⟨kind, mem⟩ := single
    refine ⟨kind, [c], cs, rfl, mem, fun d hd longer mem => ?_⟩
    exact double ⟨d, hd, longer, mem⟩

/-! ## Single tokens -/

theorem isQuote_plain (h : isQuote c) : Text.isWhiteSpace c = false ∧ c ∉ signChars := by
  simp only [isQuote, Bool.or_eq_true, beq_iff_eq] at h
  rcases h with rfl | rfl <;> decide

theorem lexeme_digit (h : Text.isDigit c) (cs : List Char) : lexeme c cs = number (c :: cs) := by
  obtain ⟨-, unsigned, unquoted⟩ := wordy_opens (.inr h)
  simp [lexeme, sign?_of_notMem unsigned, unquoted, digit_opens_none h, h]

theorem lexeme_closed {n : Nat} (h : isQuote c) (closed : quotedLength? c cs = some n) :
    lexeme c cs = .ok (.stringLiteral, n + 1) := by
  simp [lexeme, sign?_of_notMem (isQuote_plain h).2, h, closed, Nat.add_comm]

theorem lexeme_unclosed (h : isQuote c) (unclosed : quotedLength? c cs = none) :
    lexeme c cs = .error (.unterminatedString, cs.length + 1) := by
  simp [lexeme, sign?_of_notMem (isQuote_plain h).2, h, unclosed, Nat.add_comm]

theorem IsDigits.visible (h : IsDigits digits) (rest : List Char) :
    ∃ c cs, digits ++ rest = c :: cs ∧ Text.isWhiteSpace c = false := by
  obtain ⟨d, ds, rfl, digit, -⟩ := h.exists_cons
  exact ⟨d, ds ++ rest, rfl, (wordy_opens (.inr digit)).1⟩

/-- No token begins with a blank. -/
theorem Lexeme.visible (h : Lexeme kind word rest) :
    ∃ c cs, word = c :: cs ∧ Text.isWhiteSpace c = false := by
  cases h with
  | identifier opens => exact ⟨_, _, rfl, (wordy_opens (.inl opens)).1⟩
  | integer h => simpa using h.visible []
  | real h => exact h.visible _
  | quoted hq => exact ⟨_, _, rfl, (isQuote_plain hq).1⟩
  | sign h =>
      obtain ⟨c, cs, rfl, sign, -⟩ := sign_shape h
      exact ⟨c, cs, rfl, (sign_ends sign).2.2.1⟩

theorem Fault.visible {problem : Problem} {n : Nat} (h : Fault problem n rest) :
    ∃ c cs, rest = c :: cs ∧ Text.isWhiteSpace c = false := by
  cases h with
  | character visible => exact ⟨_, _, rfl, visible⟩
  | fraction hw => exact hw.visible _
  | exponent hw => exact hw.visible _
  | quoted hq => exact ⟨_, _, rfl, (isQuote_plain hq).1⟩

/-- Of what follows a token only the first character matters. -/
theorem Lexeme.of_head {other : List Char} (h : Lexeme kind word rest)
    (same : ∀ d ∈ other.head?, d ∈ rest.head?) : Lexeme kind word other := by
  cases h with
  | identifier opens continues ends =>
      exact .identifier opens continues fun d hd => ends d (same d hd)
  | integer h ends => exact .integer h fun none d hd => ends none d (same d hd)
  | real hw hf he hs part ends =>
      exact .real hw hf he hs part fun none d hd => ends none d (same d hd)
  | quoted hq h ends => exact .quoted hq h fun d hd => ends d (same d hd)
  | sign h ends => exact .sign h fun d hd => ends d (same d hd)

/-- A token is read as such. -/
theorem Lexeme.lexeme (h : Lexeme kind (c :: cs) rest) :
    lexeme c (cs ++ rest) = .ok (kind, cs.length + 1) := by
  generalize same : c :: cs = word at h
  cases h with
  | identifier opens continues ends =>
      cases same
      refine lexeme_identifier opens continues fun d hd => ?_
      simp [endsIdentifier, ends d hd]
  | integer h ends =>
      subst same
      have digit := h.2 c (by simp)
      have read := number_parts h .absent .absent .absent ends
      rw [lexeme_digit digit]
      simpa using read
  | @real whole fraction exponent suffix _ hw hf he hs part ends =>
      have read := number_parts hw hf he hs ends
      have kind : ¬ (fraction = [] ∧ exponent = [] ∧ suffix = []) := by
        rintro ⟨rfl, rfl, rfl⟩
        simp at part
      rw [if_neg kind] at read
      obtain ⟨d, ds, rfl, digit, -⟩ := hw.exists_cons
      rw [List.cons_append] at same
      cases same
      rw [lexeme_digit digit]
      simpa using read
  | quoted hq h ends =>
      cases same
      exact lexeme_closed hq (quotedLength?_append h ends)
  | sign h ends =>
      subst same
      simp only [Token.lexeme, sign?_append h ends]

/-- A character that begins no token has none of the classes that begin one. -/
private theorem classes_of_no_lexeme (none : ∀ kind word, ¬ Lexeme kind (c :: word) []) :
    c ∉ signChars ∧ isQuote c = false ∧ opensIdentifier c = false ∧ Text.isDigit c = false := by
  simp only [← Bool.not_eq_true]
  refine ⟨fun sign => ?_, fun quote => ?_, fun opens => ?_, fun digit => ?_⟩
  · obtain ⟨kind, word, rest, same, mem, -⟩ := exists_sign sign []
    obtain ⟨d, ds, rfl, -, -⟩ := sign_shape mem
    obtain ⟨rfl, -⟩ := List.cons.inj same
    exact none kind ds (.sign mem (by simp))
  · exact none .stringLiteral [c] (.quoted quote .close breaks_nil)
  · exact none .identifier [] (.identifier opens (by simp) breaks_nil)
  · exact none .integerLiteral [] (.integer (by simp [IsDigits, digit]) (by simp [EndsNumber]))

/-- A fault is reported where it shows. -/
theorem Fault.lexeme {problem : Problem} {n : Nat} (h : Fault problem n (c :: cs)) :
    lexeme c cs = .error (problem, n) := by
  generalize same : c :: cs = text at h
  cases h with
  | @character c cs visible none =>
      cases same
      obtain ⟨unsigned, unquoted, unopened, noDigit⟩ := classes_of_no_lexeme none
      simp [Token.lexeme, sign?_of_notMem unsigned, unquoted, unopened, noDigit]
  | fraction hw missing =>
      obtain ⟨d, ds, rfl, digit, -⟩ := hw.exists_cons
      rw [List.cons_append] at same
      cases same
      rw [lexeme_digit digit]
      exact number_fraction_fault hw missing
  | exponent hw hf hm sign missing =>
      obtain ⟨d, ds, rfl, digit, -⟩ := hw.exists_cons
      rw [List.cons_append] at same
      cases same
      rw [lexeme_digit digit]
      exact number_exponent_fault hw hf hm sign missing
  | quoted hq h =>
      cases same
      exact lexeme_unclosed hq (quotedLength?_unclosed h)

/-! ## Every beginning -/

/-- Behind the first digits of a number a fraction ends, or a point stands without a digit. -/
private theorem exists_fraction (ends : Breaks Text.isDigit cs) :
    (∃ fraction rest, cs = fraction ++ rest ∧ Fraction fraction ∧ Breaks Text.isDigit rest ∧
      (fraction = [] → ∀ d ∈ rest.head?, d ≠ '.')) ∨
      ∃ rest, cs = '.' :: rest ∧ Breaks Text.isDigit rest := by
  by_cases point : cs.head? = some '.'
  · obtain ⟨later, rfl⟩ := List.head?_eq_some_iff.mp point
    obtain ⟨digits, rest, rfl, all, ends⟩ := exists_takeWhile Text.isDigit later
    by_cases none : digits = []
    · exact .inr ⟨rest, by simp [none], ends⟩
    · exact .inl ⟨'.' :: digits, rest, rfl, .present ⟨none, all⟩, ends, by simp⟩
  · refine .inl ⟨[], cs, rfl, .absent, ends, fun _ d hd same => point ?_⟩
    rwa [← same]

private theorem exists_mark {e : Char} (he : e ∈ ['e', 'E']) (cs : List Char) :
    ∃ mark rest, e :: cs = mark ++ rest ∧ ExponentMark mark ∧
      (mark.length = 1 → Breaks (fun d => d == '+' || d == '-') rest) := by
  by_cases signed : ∃ s ∈ cs.head?, s ∈ ['+', '-']
  · obtain ⟨s, hs, sign⟩ := signed
    obtain ⟨rest, rfl⟩ := List.head?_eq_some_iff.mp hs
    exact ⟨[e, s], rest, rfl, .signed he sign, by simp⟩
  · refine ⟨[e], cs, rfl, .unsigned he, fun _ d hd => ?_⟩
    have other : ¬ d ∈ ['+', '-'] := fun sign => signed ⟨d, hd, sign⟩
    simpa using other

/-- An exponent ends, or its mark stands without a digit. -/
private theorem exists_exponent (ends : Breaks Text.isDigit cs) :
    (∃ exponent rest, cs = exponent ++ rest ∧ Exponent exponent ∧ Breaks Text.isDigit rest ∧
      (exponent = [] → ∀ d ∈ rest.head?, d ∉ ['e', 'E'])) ∨
      ∃ mark rest, cs = mark ++ rest ∧ ExponentMark mark ∧
        (mark.length = 1 → Breaks (fun d => d == '+' || d == '-') rest) ∧
        Breaks Text.isDigit rest := by
  by_cases marked : ∃ e ∈ cs.head?, e ∈ ['e', 'E']
  · obtain ⟨e, he, letter⟩ := marked
    obtain ⟨later, rfl⟩ := List.head?_eq_some_iff.mp he
    obtain ⟨mark, later, same, hm, sign⟩ := exists_mark letter later
    obtain ⟨digits, rest, rfl, all, ends⟩ := exists_takeWhile Text.isDigit later
    by_cases none : digits = []
    · exact .inr ⟨mark, rest, by simp [same, none], hm, by simpa [none] using sign, ends⟩
    · refine .inl ⟨mark ++ digits, rest, by simp [same], .present hm ⟨none, all⟩, ends, ?_⟩
      simp [none]
  · exact .inl ⟨[], cs, rfl, .absent, ends, fun _ d hd letter => marked ⟨d, hd, letter⟩⟩

private theorem exists_suffix (cs : List Char) :
    ∃ suffix rest, cs = suffix ++ rest ∧ Suffix suffix ∧
      (suffix = [] → ∀ d ∈ rest.head?, d ∉ ['f', 'F']) := by
  by_cases marked : ∃ f ∈ cs.head?, f ∈ ['f', 'F']
  · obtain ⟨f, hf, letter⟩ := marked
    obtain ⟨rest, rfl⟩ := List.head?_eq_some_iff.mp hf
    exact ⟨[f], rest, rfl, .present letter, by simp⟩
  · exact ⟨[], cs, rfl, .absent, fun _ d hd letter => marked ⟨d, hd, letter⟩⟩

private theorem number_or_fault (h : Text.isDigit c) (cs : List Char) :
    (∃ kind word rest, c :: cs = word ++ rest ∧ Lexeme kind word rest) ∨
      ∃ problem n, Fault problem n (c :: cs) := by
  obtain ⟨whole, later, same, all, ends⟩ := exists_takeWhile Text.isDigit (c :: cs)
  have hw : IsDigits whole := by
    refine ⟨?_, all⟩
    rintro rfl
    rw [← List.nil_append later, ← same] at ends
    simp [h] at ends
  rw [same]
  rcases exists_fraction ends with ⟨fraction, later, rfl, hf, ends, noPoint⟩ | ⟨rest, rfl, missing⟩
  · rcases exists_exponent ends with ⟨exponent, later, rfl, he, ends, noMark⟩ |
      ⟨mark, rest, rfl, hm, sign, missing⟩
    · obtain ⟨suffix, rest, rfl, hs, noLetter⟩ := exists_suffix later
      have ends : EndsNumber fraction exponent suffix rest := by
        rintro rfl d hd
        refine ⟨ends d hd, noLetter rfl d hd, ?_⟩
        rintro rfl
        refine ⟨noMark rfl d hd, ?_⟩
        rintro rfl
        exact noPoint rfl d hd
      left
      by_cases plain : fraction = [] ∧ exponent = [] ∧ suffix = []
      · obtain ⟨rfl, rfl, rfl⟩ := plain
        exact ⟨_, whole, rest, by simp, .integer hw ends⟩
      · refine ⟨_, _, rest, by simp, .real hw hf he hs ?_ ends⟩
        simpa only [not_and_or] using plain
    · exact .inr ⟨_, _, .exponent hw hf hm sign missing⟩
  · exact .inr ⟨_, _, .fraction hw missing⟩

/-- What is visible begins with a token or has a fault. -/
theorem lexeme_or_fault (visible : Text.isWhiteSpace c = false) (cs : List Char) :
    (∃ kind word rest, c :: cs = word ++ rest ∧ Lexeme kind word rest) ∨
      ∃ problem n, Fault problem n (c :: cs) := by
  by_cases sign : c ∈ signChars
  · obtain ⟨kind, word, rest, same, mem, ends⟩ := exists_sign sign cs
    exact .inl ⟨kind, word, rest, same, .sign mem ends⟩
  by_cases quote : isQuote c
  · rcases exists_quoted c cs with ⟨word, rest, rfl, h, ends⟩ | h
    · exact .inl ⟨_, c :: word, rest, rfl, .quoted quote h ends⟩
    · exact .inr ⟨_, _, .quoted quote h⟩
  by_cases opens : opensIdentifier c
  · obtain ⟨word, rest, rfl, continues, ends⟩ := exists_takeWhile continuesIdentifier cs
    exact .inl ⟨_, c :: word, rest, rfl, .identifier opens continues ends⟩
  by_cases digit : Text.isDigit c
  · exact number_or_fault digit cs
  refine .inr ⟨_, _, .character visible fun kind word h => ?_⟩
  generalize same : c :: word = text at h
  cases h with
  | identifier h => cases same; exact opens h
  | integer h => subst same; exact digit (h.2 c (by simp))
  | real h =>
      obtain ⟨d, ds, rfl, isDigit, -⟩ := h.exists_cons
      cases same
      exact digit isDigit
  | quoted h => cases same; exact quote h
  | sign h =>
      obtain ⟨d, ds, rfl, isSign, -⟩ := sign_shape h
      cases same
      exact sign isSign

end TypedExpr.Token
