import TypedExpr.Proofs.DateRange
import TypedExpr.Proofs.SpanParts

/-! # Ticks there and back

A span that is made of ticks has these ticks, and a span of whole ticks is made of its ticks again,
as long as its nanoseconds are a word of 64 bits. That is the case for about 292 years to either
side. Spans a hundred times as long still have ticks that are a word, but are not made of them.
-/

namespace TypedExpr

namespace TimeSpanMethod

variable {n : Int} {s : TimeSpan}

/-- Ticks whose nanoseconds are a word make the span of these nanoseconds. -/
theorem ofTicks_of_holds (h : IntKind.int64.Holds (n * 100)) :
    ∃ s, ofTicks n = .ok s ∧ s.nanos = n * 100 := by
  have bounds := h.short
  have within : (n * 100).natAbs ≤ 9223372036854775807000000 := by omega
  refine ⟨⟨n * 100, within⟩, ?_, rfl⟩
  rw [ofTicks, IntKind.ofInt?_of_holds h, Option.bind_some, IntKind.wrap_val h, TimeSpan.ofNanos?,
    dif_pos within]
  rfl

theorem ofTicks_of_not_holds (h : ¬ IntKind.int64.Holds (n * 100)) :
    ofTicks n = .error .overflow := by
  rw [ofTicks, IntKind.ofInt?_of_not_holds h]
  rfl

end TimeSpanMethod

/-- Ticks that are a word are not changed when they are asked for. -/
theorem SpanPart.get_ticks {s : TimeSpan} {n : IntKind.int64.Word} (h : s.nanos = n.val * 100) :
    ticks.get s = .integer .int64 n := by
  have whole : s.wholeTicks = n.val := by
    rw [TimeSpan.wholeTicks, h, Int.mul_tdiv_cancel _ (by decide)]
  rw [get, Value.int64, s.wrap_ticks, whole, IntKind.wrap_word]

/-- The time between two dates in the range that are whole ticks is a number of ticks, and that is a
word. -/
theorem DateTime.difference_ticks {t u : DateTime} (ht : t.inRange) (hu : u.inRange)
    (wholet : 100 ∣ t.nano) (wholeu : 100 ∣ u.nano) :
    ∃ n : IntKind.int64.Word, (t.difference u).nanos = n.val * 100 := by
  have bounds : IntKind.int64.low = -2 ^ 63 ∧ IntKind.int64.high = 2 ^ 63 - 1 := by decide
  rw [inRange_iff] at ht hu
  have seconds := t.second_lt
  have seconds' := u.second_lt
  have nanos := t.nano_lt
  have nanos' := u.nano_lt
  have between : -86400 ≤ t.secondsBetween u ∧ t.secondsBetween u ≤ 86400 := by
    unfold secondsBetween
    split_ifs <;> omega
  obtain ⟨a, ha⟩ := wholet
  obtain ⟨b, hb⟩ := wholeu
  refine ⟨⟨((t.day - u.day) * 86400 + t.secondsBetween u) * 10000000 + (a - b), ?_, ?_⟩, ?_⟩
  · omega
  · omega
  · simp only [difference]
    omega

namespace Operand

/-- The ticks of a span that is made of them. -/
theorem ticks_denotes {o : Operand} {host : Host} {scope : Scope} {s : TimeSpan}
    {n : IntKind.int64.Word} (h : o.Denotes host scope .timeSpan (.timeSpan s))
    (whole : s.nanos = n.val * 100) (pos : Nat) :
    ∃ ticks, property .timeSpan (some o) "Ticks" pos = .ok ticks ∧
      ticks.Denotes host scope .int64 (.integer .int64 n) := by
  rw [← SpanPart.get_ticks whole]
  exact property_denotes h rfl pos

/-- An operand that goes to a number of ticks makes a span, if the nanoseconds are a word. -/
theorem newSpan_ticks {o passed : Operand} {host : Host} {scope : Scope} {n : IntKind.int64.Word}
    (promoted : o.promote? .int64 false = some passed)
    (value : passed.expr.eval host scope = .ok (.integer .int64 n)) (pos : Nat) :
    ∃ made, construct .timeSpan [o] pos = .ok made ∧
      (IntKind.int64.Holds (n.val * 100) →
        ∃ s, s.nanos = n.val * 100 ∧ made.Denotes host scope .timeSpan (.timeSpan s)) ∧
      (¬ IntKind.int64.Holds (n.val * 100) → made.expr.eval host scope = .error .overflow) := by
  obtain ⟨made, new, ty, value⟩ := newSpan_eval promoted value pos
  refine ⟨made, new, fun holds => ?_, fun outside => ?_⟩
  · obtain ⟨s, span, nanos⟩ := TimeSpanMethod.ofTicks_of_holds holds
    exact ⟨s, nanos, ty, by rw [value, span]; rfl⟩
  · rw [value, TimeSpanMethod.ofTicks_of_not_holds outside]
    rfl

/-- A span that is made of a number of ticks has these ticks, and a span of whole ticks is made of
its ticks again, wherever the nanoseconds are a word of 64 bits; otherwise nothing is made of the
ticks, but an overflow. All dates of the range that are whole ticks are apart by spans of whole
ticks. -/
theorem ticks_there_and_back (host : Host) (scope : Scope) (n : IntKind.int64.Word)
    (pos pos' : Nat) :
    (∀ o passed : Operand, o.promote? .int64 false = some passed →
      passed.expr.eval host scope = .ok (.integer .int64 n) →
      ∃ made, construct .timeSpan [o] pos = .ok made ∧
        (IntKind.int64.Holds (n.val * 100) →
          ∃ s, s.nanos = n.val * 100 ∧ made.Denotes host scope .timeSpan (.timeSpan s) ∧
            ∃ ticks, property .timeSpan (some made) "Ticks" pos' = .ok ticks ∧
              ticks.Denotes host scope .int64 (.integer .int64 n)) ∧
        (¬ IntKind.int64.Holds (n.val * 100) → made.expr.eval host scope = .error .overflow)) ∧
    (∀ (o : Operand) (s : TimeSpan), o.Denotes host scope .timeSpan (.timeSpan s) →
      s.nanos = n.val * 100 →
      ∃ ticks, property .timeSpan (some o) "Ticks" pos = .ok ticks ∧
        ticks.Denotes host scope .int64 (.integer .int64 n) ∧
        ∃ again, construct .timeSpan [ticks] pos' = .ok again ∧
          (IntKind.int64.Holds s.nanos → again.Denotes host scope .timeSpan (.timeSpan s)) ∧
          (¬ IntKind.int64.Holds s.nanos → again.expr.eval host scope = .error .overflow)) ∧
    ∀ t u : DateTime, t.inRange → u.inRange → 100 ∣ t.nano → 100 ∣ u.nano →
      ∃ ticks : IntKind.int64.Word, (t.difference u).nanos = ticks.val * 100 := by
  refine ⟨fun o passed promoted value => ?_, fun o s spans whole => ?_,
    fun t u ht hu wholet wholeu => DateTime.difference_ticks ht hu wholet wholeu⟩
  · obtain ⟨made, new, holding, outside⟩ := newSpan_ticks promoted value pos
    refine ⟨made, new, fun holds => ?_, outside⟩
    obtain ⟨s, nanos, spans⟩ := holding holds
    exact ⟨s, nanos, spans, ticks_denotes spans nanos pos'⟩
  · obtain ⟨ticks, member, counted⟩ := ticks_denotes spans whole pos
    obtain ⟨again, new, holding, outside⟩ :=
      newSpan_ticks (if_pos counted.ty_eq) counted.eval_eq pos'
    rw [← whole] at holding outside
    refine ⟨ticks, member, counted, again, new, fun holds => ?_, outside⟩
    obtain ⟨s', nanos, made⟩ := holding holds
    rwa [TimeSpan.eq_of_nanos nanos] at made

/-- An hour, in ticks. -/
private def hour : IntKind.int64.Word := ⟨36000000000, by decide, by decide⟩

theorem ticks_there_and_back_hour :
    let o := plain (.constant (.integer .int64 hour) .int64)
    o.promote? .int64 false = some o ∧ IntKind.int64.Holds (hour.val * 100) ∧
      (∃ made, construct .timeSpan [o] 0 = .ok made ∧
        ∃ ticks, property .timeSpan (some made) "Ticks" 0 = .ok ticks ∧
          ticks.Denotes .silent [] .int64 (.integer .int64 hour)) ∧
      ∃ n : IntKind.int64.Word,
        (DateTime.maxValue.difference DateTime.minValue).nanos = n.val * 100 := by
  intro o
  have holds : IntKind.int64.Holds (hour.val * 100) := ⟨by decide, by decide⟩
  obtain ⟨there, -, apart⟩ := ticks_there_and_back .silent [] hour 0 0
  obtain ⟨made, new, holding, -⟩ := there o o (if_pos rfl) rfl
  obtain ⟨s, -, -, ticks, member, counted⟩ := holding holds
  exact ⟨if_pos rfl, holds, ⟨made, new, ticks, member, counted⟩,
    apart _ _ DateTime.inRange_maxValue DateTime.inRange_minValue (by decide) (by decide)⟩

private def greatest : IntKind.int64.Word := ⟨2 ^ 63 - 1, by decide, by decide⟩

/-- The ticks from the first date of the range to the last. -/
private def ages : IntKind.int64.Word := ⟨3155378975999999999, by decide, by decide⟩

/-- No span is made of the greatest number of ticks, and none of the ticks between the first date of
the range and the last. -/
theorem ticks_lost :
    let most := plain (.constant (.integer .int64 greatest) .int64)
    let apart := plain (.constant
      (.timeSpan (DateTime.maxValue.difference DateTime.minValue)) .timeSpan)
    (∃ made, construct .timeSpan [most] 0 = .ok made ∧
      made.expr.eval .silent [] = .error .overflow) ∧
    ∃ ticks, property .timeSpan (some apart) "Ticks" 0 = .ok ticks ∧
      ticks.Denotes .silent [] .int64 (.integer .int64 ages) ∧
      ∃ made, construct .timeSpan [ticks] 0 = .ok made ∧
        made.expr.eval .silent [] = .error .overflow := by
  intro most apart
  have outside {n : IntKind.int64.Word} (long : IntKind.int64.high < n.val * 100) :
      ¬ IntKind.int64.Holds (n.val * 100) := fun holds => Int.not_lt.mpr holds.2 long
  have spans : apart.Denotes .silent [] .timeSpan _ := denotes_constant _ _ _ _
  have nanos : (DateTime.maxValue.difference DateTime.minValue).nanos = ages.val * 100 := by decide
  obtain ⟨ticks, member, counted⟩ := ticks_denotes spans nanos 0
  obtain ⟨made, new, -, overflow⟩ := newSpan_ticks (o := most) (n := greatest) (if_pos rfl) rfl 0
  obtain ⟨again, new', -, overflow'⟩ := newSpan_ticks (if_pos counted.ty_eq) counted.eval_eq 0
  exact ⟨⟨made, new, overflow (outside (by decide))⟩, ticks, member, counted, again, new',
    overflow' (outside (by decide))⟩

end Operand
end TypedExpr
