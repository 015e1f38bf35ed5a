import TypedExpr.Proofs.Integer
import TypedExpr.Proofs.SpanMembers

/-! # Parts of spans

Days, hours, minutes, seconds and milliseconds of a span make it up, but for less than a millisecond
toward zero. Each of them but the days is less than the next larger unit, and all of them are on the
side of zero on which the span is. Its ticks are the hundreds of nanoseconds in it, toward zero. The
members give these numbers as words and never fail: days that are more than words of 32 bits hold,
and ticks that are more than words of 64 bits hold, are wrapped.
-/

namespace TypedExpr

namespace TimeSpan

/-- Counts of five units. -/
structure Parts where
  days : Int
  hours : Int
  minutes : Int
  seconds : Int
  milliseconds : Int

/-- The nanoseconds that the parts make up. -/
def Parts.nanos (p : Parts) : Int :=
  ((((p.days * 24 + p.hours) * 60 + p.minutes) * 60 + p.seconds) * 1000 + p.milliseconds) * 10 ^ 6

/-- The parts make up the span to the millisecond. Each of them is less than the next larger unit,
and neither they nor what is left of the span are beyond zero. -/
structure SplitsInto (s : TimeSpan) (p : Parts) : Prop where
  hours_lt : p.hours.natAbs < 24
  minutes_lt : p.minutes.natAbs < 60
  seconds_lt : p.seconds.natAbs < 60
  milliseconds_lt : p.milliseconds.natAbs < 1000
  rest_lt : (s.nanos - p.nanos).natAbs < 10 ^ 6
  nonneg : 0 ≤ s.nanos → 0 ≤ p.days ∧ 0 ≤ p.hours ∧ 0 ≤ p.minutes ∧ 0 ≤ p.seconds ∧
    0 ≤ p.milliseconds ∧ p.nanos ≤ s.nanos
  nonpos : s.nanos ≤ 0 → p.days ≤ 0 ∧ p.hours ≤ 0 ∧ p.minutes ≤ 0 ∧ p.seconds ≤ 0 ∧
    p.milliseconds ≤ 0 ∧ s.nanos ≤ p.nanos

variable {s : TimeSpan}

theorem eq_of_nanos {t : TimeSpan} (h : s.nanos = t.nanos) : s = t := by
  cases s
  cases t
  simpa using h

/-! ## The parts of a span -/

/-- Counts that are divided into one another, from the least unit to the greatest, are parts. -/
theorem splitsInto {p : Parts} {millis seconds minutes hours rest : Int}
    (hm : Truncates s.nanos (10 ^ 6) millis rest)
    (hs : Truncates millis 1000 seconds p.milliseconds)
    (hmin : Truncates seconds 60 minutes p.seconds) (hh : Truncates minutes 60 hours p.minutes)
    (hd : Truncates hours 24 p.days p.hours) : s.SplitsInto p := by
  have whole : p.nanos + rest = s.nanos := by
    rw [Parts.nanos, hd.whole, hh.whole, hmin.whole, hs.whole, hm.whole]
  refine ⟨hd.below, hh.below, hmin.below, hs.below, ?_, fun ha => ?_, fun ha => ?_⟩
  · have small := hm.below
    omega
  · have millis := hm.quotient_nonneg (by decide) ha
    have seconds := hs.quotient_nonneg (by decide) millis
    have minutes := hmin.quotient_nonneg (by decide) seconds
    have hours := hh.quotient_nonneg (by decide) minutes
    have rest := hm.nonneg ha
    exact ⟨hd.quotient_nonneg (by decide) hours, hd.nonneg hours, hh.nonneg minutes,
      hmin.nonneg seconds, hs.nonneg millis, by omega⟩
  · have millis := hm.quotient_nonpos (by decide) ha
    have seconds := hs.quotient_nonpos (by decide) millis
    have minutes := hmin.quotient_nonpos (by decide) seconds
    have hours := hh.quotient_nonpos (by decide) minutes
    have rest := hm.nonpos ha
    exact ⟨hd.quotient_nonpos (by decide) hours, hd.nonpos hours, hh.nonpos minutes,
      hmin.nonpos seconds, hs.nonpos millis, by omega⟩

/-- What is counted in a larger unit can be counted in a smaller one first. -/
private theorem truncates_next (a : Int) {b c d : Int} (hb : 0 < b) (hc : c ≠ 0) (unit : c * b = d) :
    Truncates (a.tdiv b) c (a.tdiv d) ((a.tdiv b).tmod c) := by
  have step := truncates_tdiv (a := a.tdiv b) hc
  have whole := (truncates_tdiv (Int.ne_of_gt hb)).again hb step
  rw [← unit, ← whole.unique.1]
  exact step

def parts (s : TimeSpan) : Parts :=
  ⟨s.days, s.hourPart, s.minutePart, s.secondPart, s.millisecondPart⟩

theorem splitsInto_parts (s : TimeSpan) : s.SplitsInto s.parts :=
  splitsInto (truncates_tdiv (by decide))
    (truncates_next s.nanos (d := 10 ^ 9) (by decide) (by decide) (by decide))
    (truncates_tdiv (by decide))
    (truncates_next s.seconds (d := 3600) (by decide) (by decide) (by decide))
    (truncates_next s.seconds (d := 86400) (by decide) (by decide) (by decide))

/-! ## Ticks -/

/-- Intervals of a hundred nanoseconds, toward zero. -/
def wholeTicks (s : TimeSpan) : Int := s.nanos.tdiv 100

theorem ticks_eq_bmod (s : TimeSpan) : s.ticks = s.wholeTicks.bmod (2 ^ 64) := by
  have seconds : Truncates s.nanos (10 ^ 9) s.seconds s.subsecond := truncates_tdiv (by decide)
  have part : Truncates s.subsecond 100 (s.subsecond.tdiv 100) (s.subsecond.tmod 100) :=
    truncates_tdiv (by decide)
  have together : Truncates s.nanos 100 (s.seconds * 10000000 + s.subsecond.tdiv 100)
      (s.subsecond.tmod 100) := by
    refine ⟨?_, part.below, fun ha => part.nonneg (seconds.nonneg ha),
      fun ha => part.nonpos (seconds.nonpos ha)⟩
    have whole := seconds.whole
    have parts := part.whole
    omega
  rw [ticks, together.unique.1, wholeTicks]

/-- The ticks as a word are the right ones up to a multiple of the number of words. -/
theorem wrap_ticks (s : TimeSpan) : IntKind.int64.wrap s.ticks = IntKind.int64.wrap s.wholeTicks := by
  refine IntKind.wrap_congr ?_
  rw [ticks_eq_bmod]
  exact Int.bmod_emod

end TimeSpan

namespace Operand

/-- The member of this name is a word that differs from the integer by a multiple of the number of
words, so that it is the integer just when the words hold it. -/
def Counts (o : Operand) (host : Host) (scope : Scope) (name : String) (k : IntKind) (n : Int) :
    Prop :=
  ∃ w : k.Word, w.val ≡ n [ZMOD k.size] ∧ (w.val = n ↔ k.Holds n) ∧ ∀ pos, ∃ m,
    property o.ty (some o) name pos = .ok m ∧ m.Denotes host scope (.integer k) (.integer k w)

variable {o : Operand} {host : Host} {scope : Scope} {s : TimeSpan}

theorem counts_of_wrap {name name' : String} {k : IntKind} {n : Int} {p : SpanPart}
    (h : o.Denotes host scope .timeSpan (.timeSpan s))
    (found : Catalog.property? .timeSpan name false =
      some (Catalog.computed name' (.integer k) (.timeSpan p)))
    (value : p.get s = .integer k (k.wrap n)) : o.Counts host scope name k n := by
  refine ⟨k.wrap n, k.wrap_modEq n, ⟨fun same => same ▸ (k.wrap n).holds, IntKind.wrap_val⟩,
    fun pos => ?_⟩
  rw [h.ty_eq, ← value]
  exact property_denotes h found pos

/-- The members that give integers give the parts of a span and its ticks, each as a word that is
exact where it can be. All but the days and the ticks always can. -/
theorem span_counted {o : Operand} {host : Host} {scope : Scope} {s : TimeSpan}
    (h : o.Denotes host scope .timeSpan (.timeSpan s)) :
    ∃ p : TimeSpan.Parts, s.SplitsInto p ∧ ∃ ticks rest, Truncates s.nanos 100 ticks rest ∧
      o.Counts host scope "Days" .int32 p.days ∧ o.Counts host scope "Hours" .int32 p.hours ∧
      o.Counts host scope "Minutes" .int32 p.minutes ∧
      o.Counts host scope "Seconds" .int32 p.seconds ∧
      o.Counts host scope "Milliseconds" .int32 p.milliseconds ∧
      o.Counts host scope "Ticks" .int64 ticks ∧
      ∀ n ∈ [p.hours, p.minutes, p.seconds, p.milliseconds], IntKind.int32.Holds n := by
  have splits := s.splitsInto_parts
  have ticks : SpanPart.ticks.get s = .integer .int64 (IntKind.int64.wrap s.wholeTicks) :=
    congrArg (Value.integer .int64) s.wrap_ticks
  refine ⟨s.parts, splits, s.wholeTicks, _, truncates_tdiv (by decide), counts_of_wrap h rfl rfl,
    counts_of_wrap h rfl rfl, counts_of_wrap h rfl rfl, counts_of_wrap h rfl rfl,
    counts_of_wrap h rfl rfl, counts_of_wrap h rfl ticks, fun n hn => ?_⟩
  have small : n.natAbs < 1000 := by
    have hours := splits.hours_lt
    have minutes := splits.minutes_lt
    have seconds := splits.seconds_lt
    have milliseconds := splits.milliseconds_lt
    simp only [List.mem_cons, List.not_mem_nil, or_false] at hn
    rcases hn with rfl | rfl | rfl | rfl <;> omega
  exact IntKind.holds_int32.mpr (by omega)

/-- A day, two hours, three minutes and four seconds below zero, and a little more. -/
private def yesterday : TimeSpan := ⟨-93784005000600, by decide⟩

theorem span_counted_yesterday :
    let o := plain (.constant (.timeSpan yesterday) .timeSpan)
    o.Denotes .silent [] .timeSpan (.timeSpan yesterday) ∧
      o.Counts .silent [] "Days" .int32 (-1) ∧ o.Counts .silent [] "Milliseconds" .int32 (-5) ∧
      o.Counts .silent [] "Ticks" .int64 (-937840050006) := by
  intro o
  have spans := denotes_constant .silent [] (.timeSpan yesterday) .timeSpan
  obtain ⟨p, splits, ticks, rest, hundreds, days, -, -, -, millis, counted, -⟩ := span_counted spans
  -- nothing else makes up the span within the bounds of the parts
  have parts : p.days = -1 ∧ p.milliseconds = -5 := by
    obtain ⟨hours, minutes, seconds, milliseconds, left, -, nonpos⟩ := splits
    have sides := nonpos (by decide)
    simp only [yesterday, TimeSpan.Parts.nanos] at left sides
    omega
  rw [parts.1] at days
  rw [parts.2] at millis
  rw [hundreds.unique.1] at counted
  exact ⟨spans, days, millis, counted⟩

/-- Three thousand million days. -/
private def aeons : TimeSpan := ⟨259200000000000000000000, by decide⟩

/-- So many days are no word of 32 bits and their ticks no word of 64 bits, but both are answered. -/
theorem span_wrapped :
    let o := plain (.constant (.timeSpan aeons) .timeSpan)
    aeons.nanos = 3000000000 * 86400 * 10 ^ 9 ∧
      (∃ days, property .timeSpan (some o) "Days" 0 = .ok days ∧
        days.expr.eval .silent [] = .ok (.integer .int32 ⟨-1294967296, by decide, by decide⟩)) ∧
      ∃ ticks, property .timeSpan (some o) "Ticks" 0 = .ok ticks ∧
        ticks.expr.eval .silent [] =
          .ok (.integer .int64 ⟨-8990914393046777856, by decide, by decide⟩) :=
  ⟨rfl, ⟨_, rfl, rfl⟩, _, rfl, rfl⟩

end Operand
end TypedExpr
