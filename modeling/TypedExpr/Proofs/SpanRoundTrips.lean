import TypedExpr.Json.OfValue
import TypedExpr.Proofs.SpanParts
import TypedExpr.Proofs.SpanTexts

/-! # Spans written and read again

The text of a span is documented, so that it is read again, whatever the span is. It shows the span
to the microsecond, though it has a digit for the tenth of it, and only to the second where there are
more microseconds than a word of 64 bits holds. What is left over is dropped toward zero. So a span
is read back as itself just if it is a whole number of these units.
-/

namespace TypedExpr

namespace TimeSpan

variable {s : TimeSpan} {n h m : Nat}

/-! ## The pieces of a text -/

theorem number_padded (width n : Nat) : documented.Number (padded width n) n :=
  ⟨isDigits_padded width n, by rw [decimal_padded]⟩

theorem number_digitsOf (n : Nat) : documented.Number (Binary.digitsOf n) n :=
  ⟨Read.isDigits_digitsOf n, by rw [Read.decimal_digitsOf]⟩

/-- Seven digits behind the point are hundreds of nanoseconds. -/
theorem seconds_written {fraction : Nat} (le : n ≤ 59) (short : fraction < 10 ^ 7) :
    documented.Seconds (padded 2 n ++ if fraction > 0 then '.' :: padded 7 fraction else []) n
      (fraction * 100) := by
  have le : (n : Int) ≤ 59 := by omega
  split
  · have digits := isDigits_padded 7 fraction
    have length := length_padded (by decide) short
    refine .fraction (number_padded 2 n) le
      ⟨digits.2, Nat.le_of_eq length, fun none => absurd none digits.1, ?_⟩
    rw [decimal_padded, length]
  · rename_i none
    obtain rfl : fraction = 0 := by omega
    rw [List.append_nil]
    exact .whole (number_padded 2 n) le

/-- The text behind the sign shows its days, its clock and its fraction. -/
theorem magnitude_written (days : Nat) {hours minutes seconds fraction : Nat} (hh : hours < 24)
    (hm : minutes < 60) (hs : seconds < 60) (short : fraction < 10 ^ 7) :
    documented.Magnitude ((if days > 0 then Binary.digitsOf days ++ ['.'] else []) ++
        padded 2 hours ++ ':' :: padded 2 minutes ++ ':' :: padded 2 seconds ++
        (if fraction > 0 then '.' :: padded 7 fraction else []))
      ⟨days, hours * 3600 + minutes * 60 + seconds, fraction * 100⟩ := by
  have clock : documented.Clock (padded 2 hours ++ ':' :: (padded 2 minutes ++ ':' ::
      (padded 2 seconds ++ if fraction > 0 then '.' :: padded 7 fraction else [])))
      (hours * 3600 + minutes * 60 + seconds) (fraction * 100) :=
    .seconds (number_padded 2 hours) (by omega) (number_padded 2 minutes) (by omega)
      (seconds_written (by omega) short)
  by_cases some : days > 0
  · simpa [some] using Dialect.Magnitude.both (number_digitsOf days) clock
  · obtain rfl : days = 0 := by omega
    simpa using Dialect.Magnitude.clock clock

/-! ## The text of a span -/

/-- The nanoseconds to which a span is written: a microsecond, or a second if the microseconds are
more than a word holds. -/
def unit (s : TimeSpan) : Int := if s.nanos.natAbs / 1000 < 2 ^ 63 then 1000 else 10 ^ 9

/-- The tenths of microseconds that are written behind the point. -/
def fraction (s : TimeSpan) : Nat :=
  if s.nanos.natAbs / 1000 < 2 ^ 63 then s.nanos.natAbs / 1000 % 1000000 * 10 else 0

/-- What the text of a span shows, its sign apart. -/
def shown (s : TimeSpan) : Shown :=
  ⟨s.abs.days, s.abs.hourPart * 3600 + s.abs.minutePart * 60 + s.abs.secondPart, s.fraction * 100⟩

theorem magnitude_toText (s : TimeSpan) : ∃ cs, documented.Magnitude cs s.shown ∧
    s.toText.toList = (if s.nanos < 0 then ['-'] else []) ++ cs := by
  have splits := s.abs.splitsInto_parts
  obtain ⟨days, hours, minutes, seconds, -, -⟩ := splits.nonneg (Int.natCast_nonneg _)
  have short : s.fraction < 10 ^ 7 := by
    unfold fraction
    split <;> omega
  have magnitude := magnitude_written s.abs.days.natAbs splits.hours_lt splits.minutes_lt
    splits.seconds_lt short
  simp only [TimeSpan.parts] at days hours minutes seconds magnitude
  rw [Int.natAbs_of_nonneg days, Int.natAbs_of_nonneg hours, Int.natAbs_of_nonneg minutes,
    Int.natAbs_of_nonneg seconds] at magnitude
  refine ⟨_, magnitude, ?_⟩
  rw [toText, String.toList_ofList]
  simp only [List.append_assoc]
  rfl

/-- The units that are shown are those of the span. -/
theorem total_shown {q rest : Int} (h : Truncates s.nanos s.unit q rest) :
    s.shown.total = (q * s.unit).natAbs := by
  obtain ⟨hours, minutes, seconds, millis, left, nonneg, -⟩ := s.abs.splitsInto_parts
  have sides := nonneg (Int.natCast_nonneg _)
  obtain ⟨whole, below, above, under⟩ := h
  have abs : s.abs.nanos = s.nanos.natAbs := rfl
  simp only [TimeSpan.parts, Parts.nanos, abs] at hours minutes seconds millis left sides
  simp only [shown, Shown.total, fraction]
  unfold unit at whole below ⊢
  split_ifs at whole below ⊢ <;> omega

theorem unit_pos (s : TimeSpan) : 0 < s.unit := by
  unfold unit
  split <;> decide

/-- The text of a span is documented, and shows the span in whole units, the rest dropped. -/
theorem documented_toText {q rest : Int} (h : Truncates s.nanos s.unit q rest) :
    Documented s.toText.toList (q * s.unit) := by
  have total := total_shown h
  obtain ⟨cs, magnitude, text⟩ := s.magnitude_toText
  rw [text, Documented]
  by_cases negative : s.nanos < 0
  · have below : q * s.unit ≤ 0 := Int.mul_nonpos_of_nonpos_of_nonneg
      (h.quotient_nonpos s.unit_pos (Int.le_of_lt negative)) (Int.le_of_lt s.unit_pos)
    rw [if_pos negative]
    exact signed_minus_iff.mpr ⟨_, magnitude, by omega⟩
  · have above : 0 ≤ q * s.unit := Int.mul_nonneg
      (h.quotient_nonneg s.unit_pos (Int.not_lt.mp negative)) (Int.le_of_lt s.unit_pos)
    have unsigned : cs.head? ≠ some '-' := fun first =>
      (clean_magnitude magnitude).notMem rfl (by decide) (List.mem_of_head? first)
    rw [if_neg negative]
    exact (signed_plain_iff unsigned).mpr ⟨_, magnitude, by omega⟩

theorem toText_not_blank (s : TimeSpan) : ∀ c ∈ s.toText.toList, Text.isWhiteSpace c = false := by
  obtain ⟨cs, magnitude, text⟩ := s.magnitude_toText
  have visible : ∀ c ∈ cs, Text.isWhiteSpace c = false := by
    intro c hc
    rcases (clean_magnitude magnitude).only c hc with digit | separator
    · exact Json.isNumeral_visible (by rw [Json.isNumeral, digit]; rfl)
    · simp only [List.mem_cons, List.not_mem_nil, or_false] at separator
      rcases separator with rfl | rfl <;> decide
  rw [text]
  intro c hc
  rcases List.mem_append.mp hc with sign | hc
  · split_ifs at sign
    · obtain rfl := List.mem_singleton.mp sign
      decide
    · cases sign
  · exact visible c hc

/-- The span in whole units, the rest dropped toward zero. -/
theorem read_toText (s : TimeSpan) : ∃ t q rest, Truncates s.nanos s.unit q rest ∧
    t.nanos = q * s.unit ∧ ofText? (Text.trimChars s.toText.toList) = some t := by
  have h := truncates_tdiv (a := s.nanos) (Int.ne_of_gt s.unit_pos)
  have within : InRange (s.nanos.tdiv s.unit * s.unit) := by
    rw [InRange, Int.natAbs_mul, Int.natAbs_tdiv]
    exact (Nat.div_mul_le_self _ _).trans s.within
  obtain ⟨t, nanos⟩ := inRange_iff.mp within
  refine ⟨t, _, _, h, nanos.symm, ?_⟩
  rw [Text.trimChars_of_not_blank s.toText_not_blank, ofText?_iff, ← nanos]
  exact accepted_of_documented (documented_toText h) within

end TimeSpan

namespace Operand

/-- The text of a span is what documents have for it, and is read as a span again: the span itself
if it is a number of whole units, and otherwise what is left of it when less than a unit is dropped
toward zero. The unit is a microsecond, or a second where microseconds are no words. -/
theorem span_text_read {o : Operand} {host : Host} {scope : Scope} {s : TimeSpan}
    (h : o.Denotes host scope .timeSpan (.timeSpan s)) (pos pos' : Nat) :
    ∃ text, method .timeSpan (some o) "ToString" [] pos = .ok text ∧
      text.Denotes host scope .string (.string s.toText) ∧
      Json.ofValue (.timeSpan s) = .string s.toText ∧
      ∃ again, method .timeSpan none "Parse" [text] pos' = .ok again ∧
        ∃ t q rest, again.Denotes host scope .timeSpan (.timeSpan t) ∧
          Truncates s.nanos s.unit q rest ∧ t.nanos = q * s.unit ∧
          TimeSpan.Documented s.toText.toList t.nanos ∧ (t = s ↔ s.unit ∣ s.nanos) := by
  obtain ⟨text, written, shows⟩ := toString_denotes h pos
  obtain ⟨again, parse, ty, value⟩ := parse_eval shows pos'
  obtain ⟨t, q, rest, units, nanos, read⟩ := s.read_toText
  refine ⟨text, written, shows, rfl, again, parse, t, q, rest, ⟨ty, ?_⟩, units, nanos, ?_, ?_⟩
  · rw [value, Value.read, Value.ofText?, read]
    rfl
  · rw [nanos]
    exact TimeSpan.documented_toText units
  · constructor
    · rintro rfl
      exact ⟨q, by rw [nanos, Int.mul_comm]⟩
    · intro whole
      have none : rest = 0 := units.unique.2.trans (Int.tmod_eq_zero_of_dvd whole)
      refine TimeSpan.eq_of_nanos ?_
      rw [nanos, ← units.whole, none, Int.add_zero]

/-- A day and two hours below zero, and a little more. -/
private def earlier : TimeSpan := ⟨-93600000001000, by decide⟩

theorem span_text_read_earlier :
    let o := plain (.constant (.timeSpan earlier) .timeSpan)
    o.Denotes .silent [] .timeSpan (.timeSpan earlier) ∧
      ∃ text, method .timeSpan (some o) "ToString" [] 0 = .ok text ∧
        ∃ again, method .timeSpan none "Parse" [text] 0 = .ok again ∧
          again.Denotes .silent [] .timeSpan (.timeSpan earlier) := by
  intro o
  have spans := denotes_constant .silent [] (.timeSpan earlier) .timeSpan
  obtain ⟨text, written, -, -, again, parse, t, q, rest, shows, -, -, -, same⟩ :=
    span_text_read spans 0 0
  have whole : earlier.unit ∣ earlier.nanos := by decide
  rw [same.mpr whole] at shows
  exact ⟨spans, text, written, again, parse, shows⟩

private def tick : TimeSpan := ⟨100, by decide⟩

/-- One tick is written as nothing, and is read again as no time at all. -/
theorem span_text_loses_tick :
    let o := plain (.constant (.timeSpan tick) .timeSpan)
    ∃ text, method .timeSpan (some o) "ToString" [] 0 = .ok text ∧
      ∃ again, method .timeSpan none "Parse" [text] 0 = .ok again ∧
        again.expr.eval .silent [] = .ok (.timeSpan .zero) ∧ tick ≠ .zero := by
  intro o
  obtain ⟨text, written, shows⟩ :=
    toString_denotes (denotes_constant .silent [] (.timeSpan tick) .timeSpan) 0
  obtain ⟨again, parse, -, value⟩ := parse_eval shows 0
  obtain ⟨t, q, rest, units, nanos, read⟩ := tick.read_toText
  obtain rfl : t = .zero := by
    refine TimeSpan.eq_of_nanos ?_
    rw [nanos, units.unique.1]
    decide
  refine ⟨text, written, again, parse, ?_, by decide⟩
  rw [value, Value.read, Value.ofText?, read]
  rfl

end Operand
end TypedExpr
