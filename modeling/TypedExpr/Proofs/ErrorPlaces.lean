import TypedExpr.Proofs.NumberTexts
import TypedExpr.Text.Span

/-! # Places of errors

An error at which the reading of a text stops stands at a character of the text, or at its end. A
span of characters is a range of bytes that begins and ends between characters, so that the text can
be cut there, and what is cut out are the characters of the span.
-/

namespace TypedExpr

/-! ## Characters and bytes -/

namespace Span

/-- The range begins and ends between characters of the text, and its bytes are those of `part`. -/
structure Selects (text : String) (range : Nat × Nat) (part : String) : Prop where
  opens : String.Pos.Raw.IsValid text ⟨range.1⟩
  closes : String.Pos.Raw.IsValid text ⟨range.2⟩
  ordered : range.1 ≤ range.2
  bytes : text.toByteArray.extract range.1 range.2 = part.toByteArray

/-- Where a span ends when positions are words of 32 bits. -/
def stopWord (s : Span) : UInt32 := UInt32.ofNat s.start + UInt32.ofNat s.length

theorem stopWord_eq {s : Span} (short : s.stop < 2 ^ 32) : s.stopWord.toNat = s.stop := by
  simp only [stop] at short
  simp only [stopWord, stop, UInt32.toNat_add, UInt32.toNat_ofNat']
  omega

/-- The bytes before a position are those of the characters before it. -/
theorem byteOffset_eq (text : String) (pos : Nat) :
    byteOffset text pos = (String.ofList (text.toList.take pos)).utf8ByteSize := by
  have sum : ∀ (cs : List Char) (n : Nat),
      cs.foldl (fun n c => n + c.utf8Size) n = n + (String.ofList cs).utf8ByteSize := by
    intro cs
    induction cs with
    | nil => simp
    | cons c cs ih =>
        intro n
        rw [List.foldl_cons, ih, String.ofList_cons, String.utf8ByteSize_append,
          String.utf8ByteSize_singleton, Nat.add_assoc]
  rw [byteOffset, sum, Nat.zero_add]

/-- The bytes of a span are those of its characters, as far as the text goes. -/
theorem byteRange_selects (s : Span) (text : String) : Selects text (s.byteRange text)
    (String.ofList ((text.toList.drop s.start).take s.length)) := by
  let before := String.ofList (text.toList.take s.start)
  let part := String.ofList ((text.toList.drop s.start).take s.length)
  let after := String.ofList (text.toList.drop (s.start + s.length))
  have upTo : String.ofList (text.toList.take (s.start + s.length)) = before ++ part := by
    rw [List.take_add, String.ofList_append]
  have whole : before ++ part ++ after = text := by
    rw [← upTo, ← String.ofList_append, List.take_append_drop, String.ofList_toList]
  have start : (s.byteRange text).1 = before.utf8ByteSize := byteOffset_eq text s.start
  have stop : (s.byteRange text).2 = before.utf8ByteSize + part.utf8ByteSize := by
    rw [← String.utf8ByteSize_append, ← upTo]
    exact byteOffset_eq text s.stop
  refine ⟨?_, ?_, ?_, ?_⟩
  · refine String.Pos.Raw.isValid_iff_exists_append.mpr ⟨before, part ++ after, ?_, ?_⟩
    · rw [← String.append_assoc, whole]
    · rw [start]
      rfl
  · refine String.Pos.Raw.isValid_iff_exists_append.mpr ⟨before ++ part, after, whole.symm, ?_⟩
    rw [stop, ← String.utf8ByteSize_append]
    rfl
  · omega
  · have first := ByteArray.extract_append_size_add' (i := 0) (j := part.utf8ByteSize)
      (b := (part ++ after).toByteArray) (String.size_toByteArray (s := before)).symm
    rw [← String.toByteArray_append, ← String.append_assoc, whole, Nat.add_zero] at first
    rw [start, stop, first, String.toByteArray_append]
    exact ByteArray.extract_append_eq_left String.size_toByteArray.symm

end Span

/-- The span that an error is shown at: one character. -/
def Diagnostic.span (e : Diagnostic) : Span := ⟨e.offset, 1⟩

/-- The error points at a character of the text, or at its end. -/
structure Diagnostic.PointsInto (e : Diagnostic) (text : String) : Prop where
  inside : e.offset ≤ text.length
  /-- The bytes of its span are those of the character at which it stands. -/
  character : ∀ c ∈ text.toList[e.offset]?,
    Span.Selects text (e.span.byteRange text) (String.singleton c)
  /-- At the end of the text the span has no bytes. -/
  atEnd : e.offset = text.length →
    e.span.byteRange text = (text.utf8ByteSize, text.utf8ByteSize) ∧
      Span.Selects text (e.span.byteRange text) ""
  /-- The end of its span is a word. -/
  counted : e.span.stopWord.toNat = e.offset + 1

theorem Diagnostic.pointsInto {e : Diagnostic} {text : String} (inside : e.offset ≤ text.length)
    (short : text.length < 2 ^ 32 - 1) : e.PointsInto text := by
  have selects := e.span.byteRange_selects text
  have one : (text.toList.drop e.span.start).take e.span.length =
      text.toList[e.offset]?.toList := by
    rw [← List.head?_drop, ← List.take_one]
    rfl
  rw [one] at selects
  refine ⟨inside, fun c hc => ?_, fun last => ⟨?_, ?_⟩, ?_⟩
  · rwa [Option.mem_def.mp hc, Option.toList_some, ← String.singleton_eq_ofList] at selects
  · have whole : ∀ pos, text.length ≤ pos → Span.byteOffset text pos = text.utf8ByteSize := by
      intro pos past
      rw [← String.length_toList] at past
      rw [Span.byteOffset_eq, List.take_of_length_le past, String.ofList_toList]
    exact Prod.ext (whole _ last.ge) (whole _ (Nat.le_succ_of_le last.ge))
  · rw [← String.length_toList] at last
    rwa [List.getElem?_eq_none last.ge] at selects
  · refine Span.stopWord_eq ?_
    show e.offset + 1 < 2 ^ 32
    omega

/-! ## The tokens of a text -/

namespace Token

variable {front text : List Char} {run : TokenRun}

/-- A fault shows no further than the text goes. -/
theorem Fault.le_length {problem : Problem} {n : Nat} (h : Fault problem n text) :
    n ≤ text.length := by
  cases h <;> simp

/-- Tokens, the end of the text and a fault stand in it. -/
theorem Cuts.inside (h : Cuts front text run) :
    (∀ t ∈ run.tokens, t.pos ≤ (front ++ text).length) ∧
      (∀ t ∈ run.end?, t.pos ≤ (front ++ text).length) ∧
      ∀ e ∈ run.error?, e.offset ≤ (front ++ text).length := by
  induction h with
  | done blank =>
      refine ⟨nofun, ?_, nofun⟩
      rintro t ⟨⟩
      exact le_rfl
  | failed blank fault =>
      refine ⟨nofun, nofun, ?_⟩
      rintro e ⟨⟩
      have := fault.le_length
      simp only [List.length_append]
      omega
  | token blank lexeme later ih =>
      obtain ⟨tokens, last, error⟩ := ih
      rw [List.append_assoc, List.append_assoc] at tokens last error
      refine ⟨List.forall_mem_cons.mpr ⟨?_, tokens⟩, last, error⟩
      simp only [List.length_append]
      omega

end Token

namespace Source

/-- Every token stands in a text of `n` characters or at its end, and so does every error. -/
def within (n : Nat) : Blame where
  written t := t.pos ≤ n
  seen t := t.pos ≤ n
  allowed e := e.offset ≤ n
  seen_of_written _ written := written
  seen_signed _ _ seen _ _ := seen
  allowed_at _ _ seen _ := seen
  allowed_real t e seen _ refused := by
    unfold Operand.ofReal at refused
    split at refused
    · cases refused
    · cases refused
      exact seen

theorem within_sound (text : String) : (within text.length).SoundText text := by
  obtain ⟨tokens, last, error⟩ := (Token.cuts_scan text).inside
  rw [List.nil_append, String.length_toList] at tokens last error
  exact fun cache => ⟨Nat.zero_le _, tokens, last, error⟩

theorem read_within {α : Type} {whole : Env → Reader α} {c : Context} {text : String}
    {e : Diagnostic} (h : ∀ env, (within text.length).Explains (whole env))
    (refused : (read whole c text).1 = .error e) : e.offset ≤ text.length :=
  read_explained h (within_sound text) refused

/-- Every error of reading an expression, a function or an ordering points into the text. The
bytes of every span are those of its characters, as far as the text goes. -/
theorem errors_point_into_text (c : Context) (resultTy : Option Ty) {text : String}
    (short : text.length < 2 ^ 32 - 1) :
    (∀ e, (readExpr c resultTy text).1 = .error e ∨ (readLambda c resultTy text).1 = .error e ∨
      (readOrdering c text).1 = .error e → e.PointsInto text) ∧
    ∀ (s : Span) (t : String), s.stop < 2 ^ 32 → s.stopWord.toNat = s.stop ∧
      Span.Selects t (s.byteRange t) (String.ofList ((t.toList.drop s.start).take s.length)) := by
  refine ⟨fun e refused => Diagnostic.pointsInto ?_ short,
    fun s t fits => ⟨Span.stopWord_eq fits, s.byteRange_selects t⟩⟩
  rcases refused with expr | function | ordering
  · exact read_within (wholeExpression_explained resultTy) expr
  · exact read_within (wholeExpression_explained resultTy) (readExpr_of_readLambda function)
  · exact read_within wholeOrdering_explained ordering

/-- A word too many behind a character of two bytes, and a text that is not closed. -/
theorem errors_point_into_text_accented :
    (readExpr ⟨[], [], 2, .empty none⟩ none "'é' ñ").1 = .error ⟨.syntaxError, 4⟩ ∧
      Diagnostic.PointsInto ⟨.syntaxError, 4⟩ "'é' ñ" ∧
      (readOrdering ⟨[], [], 2, .empty none⟩ "1'é").1 = .error ⟨.unterminatedString, 3⟩ ∧
      Diagnostic.PointsInto ⟨.unterminatedString, 3⟩ "1'é" ∧
      Span.Selects "'é' ñ" (Span.byteRange ⟨1, 9⟩ "'é' ñ") "é' ñ" := by
  have read : (readExpr ⟨[], [], 2, .empty none⟩ none "'é' ñ").1 = .error ⟨.syntaxError, 4⟩ := rfl
  have cut : (readOrdering ⟨[], [], 2, .empty none⟩ "1'é").1 = .error ⟨.unterminatedString, 3⟩ :=
    rfl
  have short : "'é' ñ".length < 2 ^ 32 - 1 := by decide
  have short' : "1'é".length < 2 ^ 32 - 1 := by decide
  obtain ⟨points, selects⟩ := errors_point_into_text _ none short
  obtain ⟨points', -⟩ := errors_point_into_text _ none short'
  exact ⟨read, points _ (.inl read), cut, points' _ (.inr (.inr cut)),
    (selects ⟨1, 9⟩ _ (by decide)).2⟩

end Source
end TypedExpr
