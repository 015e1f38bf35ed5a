import TypedExpr.Proofs.Blame
import TypedExpr.Proofs.LiteralTexts
import TypedExpr.Proofs.NumberLiterals

/-! # Texts of numbers

A text of digits is the constant that they are the value of, in the first type that holds it. A
minus before a number is a part of it, so that the least integers can be written, and no negation.
No text at all is refused because a real literal in it could not be read.
-/

namespace TypedExpr

open Token

/-! ## Real literals of a text -/

namespace Token

variable {front text : List Char} {run : TokenRun}

/-- The error of a run is a fault of the text. -/
theorem Cuts.error_fault (h : Cuts front text run) :
    ∀ e ∈ run.error?, ∃ n rest, Fault e.problem n rest := by
  induction h with
  | done => exact nofun
  | failed blank fault =>
      rintro e ⟨⟩
      exact ⟨_, _, fault⟩
  | token blank lexeme later ih => exact ih

theorem Fault.not_real {p : Problem} {n : Nat} {rest : List Char} (h : Fault p n rest)
    (word : String) : p ≠ .invalidReal word := by
  cases h <;> nofun

end Token

theorem TokenRun.kind_of_end? {run : TokenRun} {t : Token} (h : t ∈ run.end?) :
    t.kind = .endOfText := by
  induction run with
  | done pos =>
      cases h
      rfl
  | failed => cases h
  | token _ _ ih => exact ih h

namespace Source

/-- Real literals are written as their grammar has it. Reading stops at any errors but that one is
no number. -/
def realsRead : Blame where
  written t := t.kind = .realLiteral → Lexeme .realLiteral t.text.toList []
  seen t := t.kind = .realLiteral → ∃ sign ∈ [[], ['-']], ∃ word,
    Lexeme .realLiteral word [] ∧ t.text.toList = sign ++ word
  allowed e := ∀ word, e.problem ≠ .invalidReal word
  seen_of_written t written real := ⟨[], by simp, _, written real, rfl⟩
  seen_signed t number _ _ written real :=
    ⟨['-'], by simp, _, written real, by rw [String.toList_append]; rfl⟩
  allowed_at t p _ other := other
  allowed_real t e seen real refused := by
    obtain ⟨sign, hs, word, lexeme, same⟩ := seen real
    obtain ⟨o, made, -⟩ := Operand.ofReal_lexeme hs lexeme same
    cases made.symm.trans refused

theorem realsRead_sound (text : String) : realsRead.SoundText text := by
  have cuts := cuts_scan text
  refine fun cache => ⟨nofun, fun t ht real => ?_, fun t ht real => ?_, fun e he => ?_⟩
  · obtain ⟨rest, -, lexeme⟩ := cuts.piece t ht
    rw [real] at lexeme
    exact lexeme.of_head (by simp)
  · cases (TokenRun.kind_of_end? ht).symm.trans real
  · obtain ⟨n, rest, fault⟩ := cuts.error_fault e he
    exact fault.not_real

/-- A function is refused where its body is. -/
theorem readExpr_of_readLambda {c : Context} {resultTy : Option Ty} {text : String}
    {e : Diagnostic} (refused : (readLambda c resultTy text).1 = .error e) :
    (readExpr c resultTy text).1 = .error e := by
  change (readExpr c resultTy text).1.map _ = _ at refused
  cases outcome : (readExpr c resultTy text).1 with
  | ok body =>
      rw [outcome] at refused
      cases refused
  | error d =>
      rw [outcome] at refused
      cases refused
      rfl

/-! ## Texts of one number -/

variable {c : Context} {digits blanks word : List Char}

/-- The outcome of an integer literal with this text at the beginning of the whole. -/
def integerOutcome (cs : List Char) : Except Diagnostic Expr :=
  match Operand.integerValue? cs with
  | some v => .ok (.constant v v.typeOf)
  | none => .error ⟨.invalidInteger (String.ofList cs), 0⟩

theorem ofInteger_outcome (cs : List Char) :
    (Operand.ofInteger ⟨.integerLiteral, String.ofList cs, 0⟩).map (·.expr) =
      integerOutcome cs := by
  simp only [Operand.ofInteger, String.toList_ofList, integerOutcome]
  cases Operand.integerValue? cs <;> rfl

theorem readExpr_digits (ready : c.Ready) (h : IsDigits digits) :
    readExpr c none (String.ofList digits) = (integerOutcome digits, c.cache) := by
  rw [← ofInteger_outcome]
  exact readExpr_alone ready (.integer h nofun) (.integer rfl)

theorem readExpr_minusDigits (ready : c.Ready) (h : IsDigits digits)
    (blank : ∀ d ∈ blanks, Text.isWhiteSpace d) :
    readExpr c none (String.ofList ('-' :: (blanks ++ digits))) =
      (integerOutcome ('-' :: digits), c.cache) := by
  rw [← ofInteger_outcome]
  exact readExpr_signed ready blank (.integer h nofun) (by simp) (.integer rfl)

theorem readExpr_real (ready : c.Ready) (lexeme : Lexeme .realLiteral word []) :
    ∃ e, Operand.IsReal word e ∧ readExpr c none (String.ofList word) = (.ok e, c.cache) := by
  have unsigned : ([] : List Char) ∈ [[], ['-']] := by simp
  obtain ⟨o, made, real⟩ := Operand.ofReal_lexeme
    (t := ⟨.realLiteral, String.ofList word, 0⟩) unsigned lexeme String.toList_ofList
  have reads := readExpr_alone ready lexeme (.real rfl)
  rw [made] at reads
  exact ⟨_, by simpa using real, reads⟩

theorem readExpr_minusReal (ready : c.Ready) (lexeme : Lexeme .realLiteral word [])
    (blank : ∀ d ∈ blanks, Text.isWhiteSpace d) :
    ∃ e, Operand.IsReal ('-' :: word) e ∧
      readExpr c none (String.ofList ('-' :: (blanks ++ word))) = (.ok e, c.cache) := by
  have signed : ['-'] ∈ [[], ['-']] := by simp
  obtain ⟨o, made, real⟩ := Operand.ofReal_lexeme
    (t := ⟨.realLiteral, String.ofList ('-' :: word), 0⟩) signed lexeme String.toList_ofList
  have reads := readExpr_signed ready blank lexeme (by simp) (.real rfl)
  rw [made] at reads
  exact ⟨_, by simpa using real, reads⟩

/-! ## Values -/

section Values

variable {cs : List Char} {kinds : List IntKind} {n : Int}

theorem integerOutcome_held
    (value : Operand.integerValue? cs = Operand.integerValue?.firstFit n kinds)
    (held : ∃ k ∈ kinds, k.Holds n) :
    ∃ k, IntKind.FirstOf kinds n k ∧ ∃ w : k.Word, w.val = n ∧
      integerOutcome cs = .ok (.constant (.integer k w) (.integer k)) := by
  rw [integerOutcome, value]
  cases first : Operand.integerValue?.firstFit n kinds with
  | none =>
      obtain ⟨k, hk, holds⟩ := held
      exact (Operand.firstFit_eq_none_iff.mp first k hk holds).elim
  | some v =>
      obtain ⟨k, kind, w, same, rfl⟩ := Operand.firstFit_first first
      exact ⟨k, kind, w, same, rfl⟩

theorem integerOutcome_outside
    (value : Operand.integerValue? cs = Operand.integerValue?.firstFit n kinds)
    (outside : ∀ k ∈ kinds, ¬ k.Holds n) :
    integerOutcome cs = .error ⟨.invalidInteger (String.ofList cs), 0⟩ := by
  rw [integerOutcome, value, Operand.firstFit_eq_none_iff.mpr outside]

/-- The lesser kind with a sign goes down to its least integer, and then the greater one follows. -/
theorem firstOf_negative {n : Nat} {k : IntKind}
    (h : IntKind.FirstOf [.int32, .int64] (-(n : Int)) k) :
    k = if n ≤ 2 ^ 31 then .int32 else .int64 := by
  obtain ⟨before, after, split, holds, others⟩ := h
  have least : IntKind.int32.low = -2 ^ 31 ∧ 0 ≤ IntKind.int32.high := by decide
  -- the kind is one of the two, by how many are before it
  match before, split with
  | [], split =>
      cases split
      have low := holds.1
      rw [if_pos (by omega)]
  | [_], split =>
      cases split
      have outside := others .int32 (by simp)
      rw [if_neg]
      intro small
      exact outside ⟨by omega, by omega⟩
  | _ :: _ :: _, split => simp at split

theorem holds_negative {n : Nat} : (∃ k ∈ [IntKind.int32, .int64], k.Holds (-(n : Int))) ↔
    n ≤ 2 ^ 63 := by
  have least : IntKind.int64.low = -2 ^ 63 ∧ 0 ≤ IntKind.int64.high := by decide
  constructor
  · rintro ⟨k, -, holds⟩
    have short := holds.short
    omega
  · intro small
    exact ⟨.int64, by simp, by omega, by omega⟩

theorem holds_unsigned {n : Nat} : (∃ k ∈ Operand.literalKinds, k.Holds n) ↔ n < 2 ^ 64 := by
  constructor
  · rintro ⟨k, -, holds⟩
    have short := holds.short
    omega
  · intro small
    have high : IntKind.uint64.high = 2 ^ 64 - 1 := rfl
    exact ⟨.uint64, by decide, Int.natCast_nonneg n, by omega⟩

end Values

/-- Numbers have the type that their value asks for. Digits are the constant of their value in the
first type that holds it, and with a minus they are the negative constant, down to the least of all
integers; only beyond there is none. A real literal of any text is a constant, with a minus or
without, and no text is refused for one that is not. -/
theorem numbers_read_by_value :
    (∀ c : Context, c.Ready → ∀ digits, IsDigits digits →
      let n := Read.decimal digits
      (n < 2 ^ 64 → ∃ k, IntKind.FirstOf [.int32, .uint32, .int64, .uint64] n k ∧
        ∃ w : k.Word, w.val = n ∧ readExpr c none (String.ofList digits) =
          (.ok (.constant (.integer k w) (.integer k)), c.cache)) ∧
      (2 ^ 64 ≤ n → readExpr c none (String.ofList digits) =
        (.error ⟨.invalidInteger (String.ofList digits), 0⟩, c.cache)) ∧
      ∀ blanks, (∀ d ∈ blanks, Text.isWhiteSpace d) →
        let text := String.ofList ('-' :: (blanks ++ digits))
        let k := if n ≤ 2 ^ 31 then IntKind.int32 else .int64
        (n ≤ 2 ^ 63 → ∃ w : k.Word, w.val = -n ∧
          readExpr c none text = (.ok (.constant (.integer k w) (.integer k)), c.cache)) ∧
        (2 ^ 63 < n → readExpr c none text =
          (.error ⟨.invalidInteger (String.ofList ('-' :: digits)), 0⟩, c.cache))) ∧
    (∀ c : Context, c.Ready → ∀ text, ∀ t ∈ (Token.scan text).tokens, t.kind = .realLiteral →
      (∃ e, Operand.IsReal t.text.toList e ∧ readExpr c none t.text = (.ok e, c.cache)) ∧
      ∀ blanks, (∀ d ∈ blanks, Text.isWhiteSpace d) →
        ∃ e, Operand.IsReal ('-' :: t.text.toList) e ∧
          readExpr c none (String.ofList ('-' :: (blanks ++ t.text.toList))) =
            (.ok e, c.cache)) ∧
    ∀ (c : Context) (resultTy : Option Ty) (text : String) (e : Diagnostic),
      (readExpr c resultTy text).1 = .error e ∨ (readLambda c resultTy text).1 = .error e ∨
        (readOrdering c text).1 = .error e → ∀ word, e.problem ≠ .invalidReal word := by
  refine ⟨fun c ready digits h => ⟨fun small => ?_, fun large => ?_, fun blanks blank => ?_⟩,
    fun c ready text t ht real => ?_, fun c resultTy text e refused => ?_⟩
  · obtain ⟨k, first, w, value, outcome⟩ := integerOutcome_held (Operand.integerValue?_unsigned h)
      (holds_unsigned.mpr small)
    exact ⟨k, first, w, value, by rw [readExpr_digits ready h, outcome]⟩
  · have outside := mt holds_unsigned.mp (Nat.not_lt.mpr large)
    push Not at outside
    rw [readExpr_digits ready h, integerOutcome_outside (Operand.integerValue?_unsigned h) outside]
  · have reads := readExpr_minusDigits ready h blank
    refine ⟨fun small => ?_, fun large => ?_⟩
    · obtain ⟨k, first, w, value, outcome⟩ := integerOutcome_held
        (Operand.integerValue?_negative h) (holds_negative.mpr small)
      obtain rfl := firstOf_negative first
      exact ⟨w, value, by rw [reads, outcome]⟩
    · have outside := mt holds_negative.mp (Nat.not_le.mpr large)
      push Not at outside
      rw [reads, integerOutcome_outside (Operand.integerValue?_negative h) outside]
  · obtain ⟨rest, -, lexeme⟩ := (cuts_scan text).piece t ht
    rw [real] at lexeme
    have alone : Lexeme .realLiteral t.text.toList [] := lexeme.of_head (by simp)
    have whole := readExpr_real ready alone
    rw [String.ofList_toList] at whole
    exact ⟨whole, fun blanks blank => readExpr_minusReal ready alone blank⟩
  · have accounted : ∀ {α : Type} {whole : Env → Reader α},
        (∀ env, realsRead.Explains (whole env)) →
        (read whole c text).1 = .error e → ∀ word, e.problem ≠ .invalidReal word :=
      fun h refused => read_explained h (realsRead_sound text) refused
    rcases refused with refused | refused | refused
    · exact accounted (wholeExpression_explained resultTy) refused
    · exact accounted (wholeExpression_explained resultTy) (readExpr_of_readLambda refused)
    · exact accounted wholeOrdering_explained refused

/-- The greatest and the least integers are constants, one below them is none, and a real literal
with a suffix is a constant behind a minus. -/
theorem numbers_read_by_value_bounds :
    let c : Context := ⟨[], [], defaultMaxDepth, RecordCache.empty none⟩
    c.Ready ∧
    (∃ w : IntKind.uint64.Word, w.val = 18446744073709551615 ∧
      readExpr c none "18446744073709551615" =
        (.ok (.constant (.integer .uint64 w) .uint64), c.cache)) ∧
    (∃ w : IntKind.int32.Word, w.val = -2147483648 ∧
      readExpr c none "- 2147483648" = (.ok (.constant (.integer .int32 w) .int32), c.cache)) ∧
    readExpr c none "-9223372036854775809" =
      (.error ⟨.invalidInteger "-9223372036854775809", 0⟩, c.cache) ∧
    ∃ e, Operand.IsReal "-1.5e3f".toList e ∧ readExpr c none "- 1.5e3f" = (.ok e, c.cache) := by
  intro c
  have ready : c.Ready := ⟨⟨_, rfl⟩, by decide⟩
  have digits : ∀ {cs : List Char}, cs.isEmpty = false → cs.all Text.isDigit → IsDigits cs :=
    fun some all => ⟨by simpa using some, List.all_eq_true.mp all⟩
  obtain ⟨integers, reals, -⟩ := numbers_read_by_value
  refine ⟨ready, ?_, ?_, ?_, ?_⟩
  · have digits : IsDigits "18446744073709551615".toList := digits rfl rfl
    have value : Read.decimal "18446744073709551615".toList = 18446744073709551615 := by
      decide +kernel
    obtain ⟨small, -, -⟩ := integers c ready _ digits
    rw [value] at small
    obtain ⟨k, first, w, same, reads⟩ := small (by decide)
    obtain rfl : k = .uint64 := by
      obtain ⟨-, -, -, ⟨-, high⟩, -⟩ := first
      cases k with
      | uint64 => rfl
      | _ => exact absurd high (by decide)
    exact ⟨w, same, reads⟩
  · have digits : IsDigits "2147483648".toList := digits rfl rfl
    obtain ⟨-, -, negative⟩ := integers c ready _ digits
    obtain ⟨w, same, reads⟩ := (negative [' '] (List.forall_mem_singleton.mpr rfl)).1
      (by decide +kernel)
    exact ⟨w, same, reads⟩
  · have digits : IsDigits "9223372036854775809".toList := digits rfl rfl
    obtain ⟨-, -, negative⟩ := integers c ready _ digits
    exact (negative [] (by simp)).2 (by decide +kernel)
  · have token : (⟨.realLiteral, "1.5e3f", 0⟩ : Token) ∈ (Token.scan "1.5e3f").tokens := by decide
    exact (reals c ready "1.5e3f" _ token rfl).2 [' '] (List.forall_mem_singleton.mpr rfl)

end Source
end TypedExpr
