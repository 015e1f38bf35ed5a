import TypedExpr.Proofs.SpanGrammar
import TypedExpr.Proofs.SpanMembers

/-! # Reading spans

The reader of spans takes a text apart at its colons and points, and reads the pieces as integers of
64 bits. What it takes is the grammar that is accepted, no more and no less: it follows the grammar
part by part, from the numbers and the fraction over the clock and the days to the sign. Texts that
are documented are all taken, as far as their spans are in range. The other texts that are taken have
a sign that does not stand in front, a plus sign, or a point at the end.
-/

namespace TypedExpr

open Token

namespace TimeSpan

variable {cs h m ds rest : List Char} {n days seconds : Int} {nanos : Nat} {s t u : TimeSpan}

/-! ## Spans in range -/

theorem ofNanos?_iff : ofNanos? n = some s ↔ n = s.nanos := by
  unfold ofNanos?
  constructor
  · intro made
    split at made
    · cases made
      rfl
    · cases made
  · rintro rfl
    rw [dif_pos s.within]

theorem inRange_iff : InRange n ↔ ∃ s : TimeSpan, n = s.nanos :=
  ⟨fun within => ⟨⟨n, within⟩, rfl⟩, fun ⟨s, same⟩ => same ▸ s.within⟩

/-! ## Numbers and clocks -/

theorem field?_iff : field? cs = some n ↔ accepted.Number cs n := by
  have bounds : IntKind.int64.low = -2 ^ 63 ∧ IntKind.int64.high = 2 ^ 63 - 1 := by decide
  rw [field?, Read.intWithin?_iff, Read.int?_iff]
  constructor
  · rintro ⟨digits, low, high, -⟩
    exact ⟨digits, by omega, by omega⟩
  · rintro ⟨digits, low, high⟩
    exact ⟨digits, by omega, by omega, fun _ => by decide⟩

theorem fraction?_iff :
    fraction? ds = some n ↔ ∃ nanos, accepted.Fraction ds nanos ∧ n = (nanos : Nat) := by
  have value : Read.natOfDigits (ds ++ Binary.zeros (9 - ds.length)) =
      Read.decimal ds * 10 ^ (9 - ds.length) := by
    rw [Read.natOfDigits_eq, Read.decimal_append_zeros]
  have good : ¬ (ds.length > 7 || !ds.all Text.isDigit) ↔
      ds.length ≤ 7 ∧ ∀ c ∈ ds, Text.isDigit c := by
    simp
  rw [fraction?, value]
  constructor
  · intro h
    rw [Option.ite_none_left_eq_some, good] at h
    obtain ⟨⟨short, digits⟩, same⟩ := h
    exact ⟨_, ⟨digits, short, fun _ => trivial, rfl⟩, (Option.some.inj same).symm⟩
  · rintro ⟨nanos, hf, rfl⟩
    rw [if_neg (good.mpr ⟨hf.short, hf.digits⟩), hf.value]

/-- Seconds are read as a number before the first point and a fraction behind it. -/
theorem seconds_iff {whole fraction : List Char}
    (split : (Text.splitFirst? '.' cs).getD (cs, []) = (whole, fraction)) :
    accepted.Seconds cs n nanos ↔
      accepted.Number whole n ∧ n ≤ 59 ∧ accepted.Fraction fraction nanos := by
  have bare : accepted.Fraction [] 0 :=
    ⟨fun c hc => absurd hc List.not_mem_nil, by decide, fun _ => trivial, rfl⟩
  constructor
  · intro h
    cases h with
    | whole h le =>
        rw [Text.splitFirst?_of_notMem (h.1.notMem rfl (by decide) (by decide))] at split
        cases split
        exact ⟨h, le, bare⟩
    | fraction h le hf =>
        rw [Text.splitFirst?_append (h.1.notMem rfl (by decide) (by decide))] at split
        cases split
        exact ⟨h, le, hf⟩
  · rintro ⟨h, le, hf⟩
    by_cases point : '.' ∈ cs
    · obtain ⟨before, after, rfl, free⟩ := List.eq_append_cons_of_mem point
      rw [Text.splitFirst?_append free] at split
      cases split
      exact .fraction h le hf
    · rw [Text.splitFirst?_of_notMem point] at split
      cases split
      rw [hf.value]
      exact .whole h le

/-- The nanoseconds of a clock whose pieces are these. -/
def clockOf? (hours minutes seconds : List Char) : Option (TimeSpan × TimeSpan) := do
  let hours ← field? hours
  let minutes ← field? minutes
  let (whole, fraction) := (Text.splitFirst? '.' seconds).getD (seconds, [])
  let whole ← field? whole
  if hours > 23 || minutes > 59 || whole > 59 then none
  else
    let nanos ← fraction? fraction
    let seconds ← ofSeconds? (Int.bmod (hours * 3600 + minutes * 60 + whole) (2 ^ 64))
    return (seconds, ← ofNanos? nanos)

theorem clock?_eq : clock? cs = match Text.splitAll ':' cs with
    | [h, m] => clockOf? h m ['0']
    | [h, m, s] => clockOf? h m s
    | _ => none := by
  unfold clock?
  rcases Text.splitAll ':' cs with _ | ⟨h, _ | ⟨m, _ | ⟨s, _ | ⟨more, rest⟩⟩⟩⟩ <;> rfl

/-- Hours, minutes and seconds are accepted, and these are their sum and the fraction. -/
theorem clockOf?_iff {sec : List Char} : clockOf? h m sec = some (t, u) ↔
    ∃ hours minutes seconds nanos, accepted.Number h hours ∧ hours ≤ 23 ∧
      accepted.Number m minutes ∧ minutes ≤ 59 ∧ accepted.Seconds sec seconds nanos ∧
      (hours * 3600 + minutes * 60 + seconds).bmod (2 ^ 64) * 10 ^ 9 = t.nanos ∧
      (nanos : Int) = u.nanos := by
  obtain ⟨⟨whole, fraction⟩, split⟩ :
    ∃ parts, (Text.splitFirst? '.' sec).getD (sec, []) = parts := ⟨_, rfl⟩
  have bounds (hours minutes whole : Int) : ¬ (hours > 23 || minutes > 59 || whole > 59) ↔
      hours ≤ 23 ∧ minutes ≤ 59 ∧ whole ≤ 59 := by
    simp [and_assoc]
  simp only [clockOf?, split, Option.bind_eq_bind, Option.bind_eq_some_iff,
    Option.ite_none_left_eq_some, bounds, field?_iff, fraction?_iff, ofSeconds?, ofNanos?_iff,
    seconds_iff split]
  constructor
  · rintro ⟨hours, hh, minutes, hm, n, hw, ⟨hoursLe, minutesLe, le⟩, _, ⟨nanos, hf, rfl⟩, t, sum, u,
      part, same⟩
    cases same
    exact ⟨hours, minutes, n, nanos, hh, hoursLe, hm, minutesLe, ⟨hw, le, hf⟩, sum, part⟩
  · rintro ⟨hours, minutes, n, nanos, hh, hoursLe, hm, minutesLe, ⟨hw, le, hf⟩, sum, part⟩
    exact ⟨hours, hh, minutes, hm, n, hw, ⟨hoursLe, minutesLe, le⟩, _, ⟨nanos, hf, rfl⟩, t, sum, u,
      part, rfl⟩

/-- Where no seconds are written, they are read as zero. -/
theorem zero_seconds_iff : accepted.Seconds ['0'] n nanos ↔ n = 0 ∧ nanos = 0 := by
  have digits : IsDigits ['0'] := Read.isDigits_of_all (by decide) (by decide)
  constructor
  · intro h
    have split : (Text.splitFirst? '.' ['0']).getD (['0'], []) = (['0'], []) := rfl
    obtain ⟨number, -, none⟩ := (seconds_iff split).mp h
    have read := Read.int?_iff.mpr number.1
    rw [Read.int?_digits digits] at read
    exact ⟨(Option.some.inj read).symm, none.value⟩
  · rintro ⟨rfl, rfl⟩
    exact .whole ⟨.digits digits, by decide, by decide⟩ (by decide)

theorem colon_notMem (h : accepted.Number cs n) : ':' ∉ cs :=
  h.1.notMem rfl (by decide) (by decide)

theorem point_notMem (h : accepted.Number cs n) : '.' ∉ cs :=
  h.1.notMem rfl (by decide) (by decide)

theorem colon_notMem_seconds (h : accepted.Seconds cs n nanos) : ':' ∉ cs := by
  cases h with
  | whole h => exact colon_notMem h
  | fraction h _ hf =>
      have behind := List.not_mem_cons_of_ne_of_not_mem (show ':' ≠ '.' by decide)
        (Read.notMem_digits hf.digits rfl)
      exact mt List.mem_append.mp (not_or.mpr ⟨colon_notMem h, behind⟩)

theorem clock?_iff : clock? cs = some (t, u) ↔ ∃ seconds nanos, accepted.Clock cs seconds nanos ∧
    seconds.bmod (2 ^ 64) * 10 ^ 9 = t.nanos ∧ (nanos : Int) = u.nanos := by
  rw [clock?_eq]
  constructor
  · intro h
    split at h
    · rename_i pieces
      obtain ⟨_, rfl, last⟩ := Text.exists_of_splitAll pieces
      obtain rfl := Text.eq_of_splitAll last
      obtain ⟨hours, minutes, _, _, hh, hoursLe, hm, minutesLe, none, sum, part⟩ := clockOf?_iff.mp h
      obtain ⟨rfl, rfl⟩ := zero_seconds_iff.mp none
      rw [Int.add_zero] at sum
      exact ⟨_, _, .minutes hh hoursLe hm minutesLe, sum, part⟩
    · rename_i pieces
      obtain ⟨_, rfl, others⟩ := Text.exists_of_splitAll pieces
      obtain ⟨_, rfl, last⟩ := Text.exists_of_splitAll others
      obtain rfl := Text.eq_of_splitAll last
      obtain ⟨hours, minutes, n, nanos, hh, hoursLe, hm, minutesLe, hs, sum, part⟩ :=
        clockOf?_iff.mp h
      exact ⟨_, _, .seconds hh hoursLe hm minutesLe hs, sum, part⟩
    · cases h
  · rintro ⟨seconds, nanos, h, sum, part⟩
    cases h with
    | minutes hh hoursLe hm minutesLe =>
        rw [Text.splitAll_append (colon_notMem hh), Text.splitAll_of_notMem (colon_notMem hm)]
        rw [← Int.add_zero (_ + _)] at sum
        exact clockOf?_iff.mpr ⟨_, _, _, _, hh, hoursLe, hm, minutesLe,
          zero_seconds_iff.mpr ⟨rfl, rfl⟩, sum, part⟩
    | seconds hh hoursLe hm minutesLe hs =>
        rw [Text.splitAll_append (colon_notMem hh), Text.splitAll_append (colon_notMem hm),
          Text.splitAll_of_notMem (colon_notMem_seconds hs)]
        exact clockOf?_iff.mpr ⟨_, _, _, _, hh, hoursLe, hm, minutesLe, hs, sum, part⟩

/-! ## Days and signs -/

/-- The span of days and a clock. -/
def clocked? (days : Int) (cs : List Char) : Option TimeSpan := do
  let (seconds, fraction) ← clock? cs
  let total ← (← ofText?.ofDays? days).add? seconds
  total.add? fraction

theorem clocked?_iff : clocked? days cs = some s ↔ ∃ seconds nanos,
    accepted.Clock cs seconds nanos ∧ Shown.AddsUp ⟨days, seconds, nanos⟩ s.nanos := by
  simp only [clocked?, Option.bind_eq_bind, Option.bind_eq_some_iff, Prod.exists, clock?_iff,
    ofText?.ofDays?, ofSeconds?, add?, ofNanos?_iff]
  constructor
  · rintro ⟨c, f, ⟨seconds, nanos, h, sum, part⟩, d, inDays, both, together, all⟩
    refine ⟨seconds, nanos, h, ?_, ?_, ?_, ?_⟩
    · exact inRange_iff.mpr ⟨d, inDays⟩
    · exact inRange_iff.mpr ⟨c, sum⟩
    · exact inRange_iff.mpr ⟨both, by rw [inDays, sum, together]⟩
    · simp only
      rw [inDays, sum, part, together, all]
  · rintro ⟨seconds, nanos, h, inDays, inSeconds, inBoth, all⟩
    obtain ⟨d, inDays⟩ := inRange_iff.mp inDays
    obtain ⟨c, sum⟩ := inRange_iff.mp inSeconds
    obtain ⟨both, together⟩ := inRange_iff.mp inBoth
    have small : InRange nanos := by
      have small := h.nanos_lt
      unfold InRange
      omega
    obtain ⟨f, part⟩ := inRange_iff.mp small
    refine ⟨c, f, ⟨seconds, nanos, h, sum, part⟩, d, inDays, both, ?_, ?_⟩
    · rw [← inDays, ← sum, together]
    · rw [← together, ← part, all]

/-- What is read behind the minus sign in front. -/
def magnitude? (cs : List Char) : Option TimeSpan :=
  match Text.splitFirst? ':' cs with
  | none => (field? cs).bind ofText?.ofDays?
  | some (head, _) =>
    match Text.splitFirst? '.' head with
    | some (d, _) => (field? d).bind fun days => clocked? days (cs.drop (d.length + 1))
    | none => clocked? 0 cs

theorem magnitude?_days (free : ':' ∉ cs) : magnitude? cs = (field? cs).bind ofText?.ofDays? := by
  rw [magnitude?, Text.splitFirst?_of_notMem free]

theorem magnitude?_clock (colon : ':' ∉ h) (point : '.' ∉ h) (rest : List Char) :
    magnitude? (h ++ ':' :: rest) = clocked? 0 (h ++ ':' :: rest) := by
  rw [magnitude?, Text.splitFirst?_append colon]
  simp only [Text.splitFirst?_of_notMem point]

theorem magnitude?_both (point : '.' ∉ ds) (colon : ':' ∉ ds) (colon' : ':' ∉ h)
    (rest : List Char) : magnitude? (ds ++ '.' :: (h ++ ':' :: rest)) =
      (field? ds).bind fun days => clocked? days (h ++ ':' :: rest) := by
  have head : ds ++ '.' :: (h ++ ':' :: rest) = (ds ++ '.' :: h) ++ ':' :: rest := by simp
  have free : ':' ∉ ds ++ '.' :: h := by simp [colon, colon']
  have behind : (ds ++ '.' :: (h ++ ':' :: rest)).drop (ds.length + 1) = h ++ ':' :: rest := by
    simp
  have first := Text.splitFirst?_append free rest
  rw [← head] at first
  rw [magnitude?, first]
  simp only [Text.splitFirst?_append point, behind]

theorem days_iff : (field? cs).bind ofText?.ofDays? = some s ↔
    ∃ days, accepted.Number cs days ∧ Shown.AddsUp ⟨days, 0, 0⟩ s.nanos := by
  simp only [Option.bind_eq_some_iff, field?_iff, ofText?.ofDays?, ofSeconds?, ofNanos?_iff]
  refine exists_congr fun days => and_congr_right fun _ => ?_
  constructor
  · intro value
    have within := inRange_iff.mpr ⟨s, value⟩
    have zero : InRange 0 := inRange_iff.mpr ⟨zero, rfl⟩
    exact ⟨within, zero, by simpa using within, by simpa using value.symm⟩
  · intro sum
    simpa using sum.value.symm

theorem magnitude?_iff :
    magnitude? cs = some s ↔ ∃ f, accepted.Magnitude cs f ∧ f.AddsUp s.nanos := by
  constructor
  · intro read
    by_cases colon : ':' ∈ cs
    · obtain ⟨head, rest, rfl, free⟩ := List.eq_append_cons_of_mem colon
      by_cases point : '.' ∈ head
      · obtain ⟨ds, h, rfl, free'⟩ := List.eq_append_cons_of_mem point
        simp only [List.mem_append, List.mem_cons, not_or] at free
        rw [List.append_assoc, List.cons_append,
          magnitude?_both free' free.1 free.2.2] at read
        obtain ⟨days, number, timed⟩ := Option.bind_eq_some_iff.mp read
        obtain ⟨seconds, nanos, clock, sum⟩ := clocked?_iff.mp timed
        rw [List.append_assoc, List.cons_append]
        exact ⟨_, .both (field?_iff.mp number) clock, sum⟩
      · rw [magnitude?_clock free point] at read
        obtain ⟨seconds, nanos, clock, sum⟩ := clocked?_iff.mp read
        exact ⟨_, .clock clock, sum⟩
    · rw [magnitude?_days colon] at read
      obtain ⟨days, number, sum⟩ := days_iff.mp read
      exact ⟨_, .days number, sum⟩
  · rintro ⟨f, shown, sum⟩
    cases shown with
    | days number =>
        rw [magnitude?_days (colon_notMem number)]
        exact days_iff.mpr ⟨_, number, sum⟩
    | clock clock =>
        obtain ⟨h, hours, rest, number, rfl⟩ := clock.opens
        rw [magnitude?_clock (colon_notMem number) (point_notMem number)]
        exact clocked?_iff.mpr ⟨_, _, clock, sum⟩
    | both number clock =>
        obtain ⟨h, hours, rest, number', rfl⟩ := clock.opens
        rw [magnitude?_both (point_notMem number) (colon_notMem number) (colon_notMem number')]
        exact Option.bind_eq_some_iff.mpr
          ⟨_, field?_iff.mpr number, clocked?_iff.mpr ⟨_, _, clock, sum⟩⟩

/-- Whether a minus sign is the first, and what it stands before. -/
def front (cs : List Char) : Bool × List Char :=
  match cs with
  | '-' :: rest => (true, rest)
  | _ => (false, cs)

theorem front_plain (unsigned : cs.head? ≠ some '-') : front cs = (false, cs) := by
  unfold front
  split
  · exact absurd rfl unsigned
  · rfl

theorem ofText?_eq {negative : Bool} (parts : front cs = (negative, rest)) :
    ofText? cs = (magnitude? rest).map fun total => if negative then total.neg else total := by
  unfold ofText?
  split
  rename_i there
  cases there.symm.trans parts
  unfold magnitude?
  cases Text.splitFirst? ':' rest with
  | none => simp [Option.bind_assoc, Option.map_eq_bind]
  | some pieces =>
      obtain ⟨head, _⟩ := pieces
      cases point : Text.splitFirst? '.' head <;>
        simp [point, clocked?, Option.bind_assoc, Option.map_eq_bind]

/-- The texts of spans are the accepted ones. -/
theorem ofText?_iff : ofText? cs = some s ↔ Accepted cs s.nanos := by
  by_cases minus : cs.head? = some '-'
  · obtain ⟨rest, rfl⟩ := List.head?_eq_some_iff.mp minus
    have opposite (t : TimeSpan) : t.neg = s ↔ t = s.neg := by
      constructor
      · rintro rfl
        simp [neg]
      · rintro rfl
        simp [neg]
    have behind : Accepted ('-' :: rest) s.nanos ↔ magnitude? rest = some s.neg :=
      signed_minus_iff.trans (magnitude?_iff (s := s.neg)).symm
    rw [ofText?_eq rfl, behind]
    simp [opposite]
  · rw [ofText?_eq (front_plain minus), Accepted, signed_plain_iff minus, ← magnitude?_iff]
    simp

end TimeSpan

namespace Operand

/-- A text is read as a span just if it is accepted, blanks around it apart, and is quoted in an
error otherwise. Of the accepted texts, the documented ones are those in which no sign stands but a
minus sign in front, and which do not end with a point. -/
theorem span_texts {o : Operand} {host : Host} {scope : Scope} {text : String}
    (h : o.Denotes host scope .string (.string text)) (pos : Nat) :
    ∃ m, method .timeSpan none "Parse" [o] pos = .ok m ∧ m.ty = .timeSpan ∧
      (∀ s, m.expr.eval host scope = .ok (.timeSpan s) ↔
        TimeSpan.Accepted (Text.trimChars text.toList) s.nanos) ∧
      ((∀ s : TimeSpan, ¬ TimeSpan.Accepted (Text.trimChars text.toList) s.nanos) →
        m.expr.eval host scope = .error (.invalidFormat text)) ∧
      ∀ s : TimeSpan, TimeSpan.Documented (Text.trimChars text.toList) s.nanos ↔
        TimeSpan.Accepted (Text.trimChars text.toList) s.nanos ∧
          TimeSpan.Plain (Text.trimChars text.toList) := by
  obtain ⟨m, parse, ty, value⟩ := parse_eval h pos
  have read : m.expr.eval host scope = Outcome.ofOption (.invalidFormat text)
      ((TimeSpan.ofText? (Text.trimChars text.toList)).map .timeSpan) := value
  refine ⟨m, parse, ty, fun s => ?_, fun unaccepted => ?_, fun s => TimeSpan.documented_iff s.within⟩
  · rw [read, ← TimeSpan.ofText?_iff]
    cases TimeSpan.ofText? (Text.trimChars text.toList) with
    | none => simp [Outcome.ofOption]
    | some t => simp [Outcome.ofOption]
  · have refused : TimeSpan.ofText? (Text.trimChars text.toList) = none :=
      Option.eq_none_iff_forall_ne_some.mpr fun s => mt TimeSpan.ofText?_iff.mp (unaccepted s)
    rw [read, refused]
    rfl

/-- A day, two and a half hours, and a tenth of a second below zero. -/
private def before : TimeSpan := ⟨-95400100000000, by decide⟩

theorem span_texts_before :
    let o := plain (.constant (.string " -1.02:30:00.1") .string)
    o.Denotes .silent [] .string (.string " -1.02:30:00.1") ∧
      ∃ m, method .timeSpan none "Parse" [o] 0 = .ok m ∧
        m.expr.eval .silent [] = .ok (.timeSpan before) := by
  intro o
  have text := denotes_constant .silent [] (.string " -1.02:30:00.1") .string
  obtain ⟨m, parse, -, accepts, -, documented⟩ := span_texts text 0
  have trimmed : Text.trimChars " -1.02:30:00.1".toList = "-1.02:30:00.1".toList := by decide
  rw [trimmed] at accepts documented
  have number (ds : List Char) (digits : ds.all Text.isDigit) (some : ds ≠ []) :
      TimeSpan.documented.Number ds (Read.decimal ds) :=
    ⟨Read.isDigits_of_all digits some, rfl⟩
  have tenth : TimeSpan.documented.Fraction ['1'] 100000000 := by
    refine ⟨List.all_eq_true.mp (by decide), by decide, fun none => ?_, rfl⟩
    cases none
  have seconds : TimeSpan.documented.Seconds (['0', '0'] ++ '.' :: ['1']) 0 100000000 :=
    .fraction (number _ (by decide) (by decide)) (by decide) tenth
  have clock : TimeSpan.documented.Clock (['0', '2'] ++ ':' :: (['3', '0'] ++ ':' :: _)) 9000 _ :=
    .seconds (number _ (by decide) (by decide)) (by decide) (number _ (by decide) (by decide))
      (by decide) seconds
  have both : TimeSpan.documented.Magnitude (['1'] ++ '.' :: _) ⟨1, 9000, _⟩ :=
    .both (number _ (by decide) (by decide)) clock
  have shown : TimeSpan.Documented "-1.02:30:00.1".toList before.nanos := .minus ⟨_, both, rfl⟩
  exact ⟨text, m, parse, (accepts before).mpr ((documented before).mp shown).1⟩

/-- Two minus signs are no sign, and a point may be the last: five days and a second are read from
texts that are not documented. -/
theorem span_texts_undocumented :
    (∃ m, method .timeSpan none "Parse" [plain (.constant (.string "--5") .string)] 0 = .ok m ∧
      m.expr.eval .silent [] = .ok (.timeSpan ⟨5 * 86400 * 10 ^ 9, by decide⟩)) ∧
    (∀ n, ¬ TimeSpan.Documented "--5".toList n) ∧
    (∃ m, method .timeSpan none "Parse" [plain (.constant (.string "00:00:01.") .string)] 0 =
      .ok m ∧ m.expr.eval .silent [] = .ok (.timeSpan ⟨1000000000, by decide⟩)) ∧
    ∀ n, ¬ TimeSpan.Documented "00:00:01.".toList n := by
  have signs := denotes_constant .silent [] (.string "--5") .string
  have point := denotes_constant .silent [] (.string "00:00:01.") .string
  obtain ⟨m, parse, -, value⟩ := parse_eval signs 0
  obtain ⟨m', parse', -, value'⟩ := parse_eval point 0
  have second : TimeSpan.ofText? (Text.trimChars "00:00:01.".toList) =
      some ⟨1000000000, by decide⟩ := by decide
  refine ⟨⟨m, parse, value.trans (by rfl)⟩,
    fun n h => (TimeSpan.plain_of_documented h).minus (by decide),
    ⟨m', parse', value'.trans ?_⟩,
    fun n h => (TimeSpan.plain_of_documented h).point (by decide)⟩
  simp only [Value.read, Value.ofText?, second]
  rfl

end Operand
end TypedExpr
