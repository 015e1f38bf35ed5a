import TypedExpr.Proofs.DateRange
import TypedExpr.Proofs.MemberCalls

/-! # Arithmetic on dates

Outside a leap second a date is an instant, and each instant of the days that have dates is that of
one such date. So a span leads to the date at just the instant that it says, or out of the range;
and from a date to another leads their difference, and no other span.
-/

namespace TypedExpr

namespace DateTime

variable {t u : DateTime} {s : TimeSpan} {n : Int}

/-- The date at an instant, outside any leap second. -/
def ofInstant? (n : Int) : Option DateTime :=
  make? (n / 10 ^ 9 / 86400) (n / 10 ^ 9 % 86400).toNat (n % 10 ^ 9).toNat

theorem ofInstant?_iff : ofInstant? n = some t ↔ t.nano < 10 ^ 9 ∧ t.instant = n := by
  constructor
  · intro h
    obtain ⟨day, second, nano⟩ := make?_some h
    simp only [instant]
    omega
  · rintro ⟨regular, rfl⟩
    have second := t.second_lt
    have parts : t.instant / 10 ^ 9 / 86400 = t.day ∧
        (t.instant / 10 ^ 9 % 86400).toNat = t.second ∧
        (t.instant % 10 ^ 9).toNat = t.nano := by
      simp only [instant]
      omega
    rw [ofInstant?, parts.1, parts.2.1, parts.2.2]
    exact dif_pos ⟨t.day_ge, t.day_le, t.second_lt, t.nano_lt⟩

/-- A span leads from a date outside leap seconds to the date at the instant that it says. -/
theorem add?_eq_ofInstant? (regular : t.nano < 10 ^ 9) :
    t.add? s = ofInstant? (t.instant + s.nanos) := by
  have parts : 10 ^ 9 * s.seconds + s.subsecond = s.nanos := Int.mul_tdiv_add_tmod _ _
  have time : ∀ d : Int, (t.second + s.seconds) * 10 ^ 9 + (t.nano + s.subsecond) = d →
      t.instant + s.nanos = t.day * 86400 * 10 ^ 9 + d := by
    simp only [instant]
    omega
  rw [add?, advance, ofInstant?, time _ rfl, if_pos regular]
  dsimp only
  congr 2 <;> omega

theorem inRange_iff_instant (regular : t.nano < 10 ^ 9) :
    t.inRange ↔ minValue.instant ≤ t.instant ∧ t.instant ≤ maxValue.instant := by
  have second := t.second_lt
  rw [inRange_iff, instant_minValue, instant_maxValue, instant]
  omega

/-- Dates outside leap seconds are in the order of their instants. -/
theorem isLT_compare (ht : t.nano < 10 ^ 9) (hu : u.nano < 10 ^ 9) :
    (t.compare u).isLT ↔ t.instant < u.instant := by
  have ht' := t.second_lt
  have hu' := u.second_lt
  simp only [DateTime.compare, Ordering.isLT_iff_eq_lt, Ordering.then_eq_lt, Std.compare_eq_lt,
    Std.compare_eq_iff_eq, instant]
  omega

/-- The outcome of a computation that says this instant exactly. -/
inductive At (n : Int) : Outcome Value → Prop where
  | date {t : DateTime} (within : t.inRange) (regular : t.nano < 10 ^ 9) (exact : t.instant = n) :
    At n (.ok (.dateTime t))
  | outside (h : n < minValue.instant ∨ maxValue.instant < n) : At n (.error .overflow)

theorem checkedDate_at (n : Int) : At n (BinaryOp.checkedDate (ofInstant? n)) := by
  cases h : ofInstant? n with
  | none =>
      refine .outside ?_
      rw [instant_minValue, instant_maxValue]
      by_contra inside
      have made : ofInstant? n = some _ :=
        dif_pos ⟨by omega, by omega, by omega, by omega⟩
      cases h.symm.trans made
  | some t =>
      obtain ⟨regular, exact⟩ := ofInstant?_iff.mp h
      have within := inRange_iff_instant regular
      rw [BinaryOp.checkedDate]
      split
      · exact .date ‹_› regular exact
      · rename_i beyond
        refine .outside ?_
        rw [within, exact] at beyond
        omega

/-- An instant has one outcome. -/
theorem At.unique {outcome outcome' : Outcome Value} (h : At n outcome) (h' : At n outcome') :
    outcome = outcome' := by
  have excluded {t : DateTime} (within : t.inRange) (regular : t.nano < 10 ^ 9)
      (exact : t.instant = n) : ¬ (n < minValue.instant ∨ maxValue.instant < n) := by
    rw [inRange_iff_instant regular, exact] at within
    omega
  cases h with
  | date within regular exact =>
      cases h' with
      | date _ regular' exact' =>
          have one := ofInstant?_iff.mpr ⟨regular, exact⟩
          cases one.symm.trans (ofInstant?_iff.mpr ⟨regular', exact'⟩)
          rfl
      | outside h' => exact absurd h' (excluded within regular exact)
  | outside h =>
      cases h' with
      | date within regular exact => exact absurd h (excluded within regular exact)
      | outside => rfl

theorem checkedDate_instant (within : t.inRange) (regular : t.nano < 10 ^ 9) :
    BinaryOp.checkedDate (ofInstant? t.instant) = .ok (.dateTime t) := by
  rw [ofInstant?_iff.mpr ⟨regular, rfl⟩]
  exact if_pos within

theorem add?_at (s : TimeSpan) (regular : t.nano < 10 ^ 9) :
    At (t.instant + s.nanos) (BinaryOp.checkedDate (t.add? s)) := by
  rw [add?_eq_ofInstant? regular]
  exact checkedDate_at _

theorem sub?_at (s : TimeSpan) (regular : t.nano < 10 ^ 9) :
    At (t.instant - s.nanos) (BinaryOp.checkedDate (t.sub? s)) :=
  add?_at s.neg regular

theorem nanos_difference (ht : t.nano < 10 ^ 9) (hu : u.nano < 10 ^ 9) :
    (t.difference u).nanos = t.instant - u.instant := by
  simp only [difference, secondsBetween, instant]
  split_ifs <;> omega

/-- Their difference leads from one date to the other. -/
theorem add?_difference (within : t.inRange) (ht : t.nano < 10 ^ 9) (hu : u.nano < 10 ^ 9) :
    BinaryOp.checkedDate (u.add? (t.difference u)) = .ok (.dateTime t) := by
  have back : u.instant + (t.instant - u.instant) = t.instant := by omega
  rw [add?_eq_ofInstant? hu, nanos_difference ht hu, back]
  exact checkedDate_instant within ht

/-- A span leads back from where it has led to. -/
theorem sub?_add? (within : t.inRange) (ht : t.nano < 10 ^ 9) (hu : u.nano < 10 ^ 9)
    (led : u.instant = t.instant + s.nanos) :
    BinaryOp.checkedDate (u.sub? s) = .ok (.dateTime t) := by
  have back : u.instant + s.neg.nanos = t.instant := by
    simp only [TimeSpan.neg]
    omega
  rw [sub?, add?_eq_ofInstant? hu, back]
  exact checkedDate_instant within ht

end DateTime

namespace Operand

open BinaryOp (checkedDate)

variable {host : Host} {scope : Scope} {a b s s' : Operand} {t u : DateTime} {x x' : TimeSpan}

/-! ## Operators -/

theorem date_plus (ha : a.Denotes host scope .dateTime (.dateTime t))
    (hs : s.Denotes host scope .timeSpan (.timeSpan x)) :
    Gives (plus a s) host scope .dateTime (checkedDate (t.add? x)) :=
  binary_gives (k := .plus) ha hs (fun _ => rfl) nofun rfl nofun
    (resolveLayers_own (.cons ha hs.alone) rfl)

theorem date_minus (ha : a.Denotes host scope .dateTime (.dateTime t))
    (hb : b.Denotes host scope .dateTime (.dateTime u)) :
    Gives (minus a b) host scope .timeSpan (.ok (.timeSpan (t.difference u))) :=
  binary_gives (k := .minus) ha hb (fun _ => rfl) nofun rfl nofun
    (resolveLayers_own (.cons ha hb.alone) rfl)

/-- A span is no date, so that the signature of differences does not take it. -/
theorem date_minus_span (ha : a.Denotes host scope .dateTime (.dateTime t))
    (hs : s.Evaluates host scope .timeSpan (.ok (.timeSpan x))) :
    Gives (minus a s) host scope .dateTime (checkedDate (t.sub? x)) := by
  have passed : Passed host scope [a, s] [(.dateTime, .dateTime t), (.timeSpan, .timeSpan x)] :=
    .cons ha hs.denotes.alone
  have noDate : ∀ target ∈ [Ty.dateTime], ∀ text, reread? text .timeSpan target = none :=
    fun _ _ _ => rfl
  exact binary_gives (k := .minus) ha hs.denotes (fun _ => rfl) nofun rfl nofun
    ((resolveLayers_apart hs (by simp) nofun (by decide) noDate).trans
      (resolveLayers_own passed rfl))

theorem date_below (ha : a.Denotes host scope .dateTime (.dateTime t))
    (hb : b.Denotes host scope .dateTime (.dateTime u)) :
    Gives (below a b) host scope .boolean (.ok (.boolean (t.compare u).isLT)) :=
  order_gives (k := .lessThan) ha hb (fun _ => rfl) nofun rfl rfl nofun rfl

theorem span_below (hs : s.Denotes host scope .timeSpan (.timeSpan x))
    (hs' : s'.Denotes host scope .timeSpan (.timeSpan x')) :
    Gives (below s s') host scope .boolean (.ok (.boolean (compare x.nanos x'.nanos).isLT)) :=
  order_gives (k := .lessThan) hs hs' (fun _ => rfl) nofun rfl rfl nofun rfl

/-! ## Methods -/

theorem date_add (ha : a.Denotes host scope .dateTime (.dateTime t))
    (hs : s.Denotes host scope .timeSpan (.timeSpan x)) :
    Gives (method .dateTime (some a) "Add" [s]) host scope .dateTime (checkedDate (t.add? x)) :=
  method_gives (b := .dateTime .add) ha rfl hs.alone rfl rfl

theorem date_subtract (ha : a.Denotes host scope .dateTime (.dateTime t))
    (hb : b.Denotes host scope .dateTime (.dateTime u)) :
    Gives (method .dateTime (some a) "Subtract" [b]) host scope .timeSpan
      (.ok (.timeSpan (t.difference u))) :=
  method_gives (b := .dateTime .subtract) ha rfl hb.alone rfl rfl

theorem date_subtract_span (ha : a.Denotes host scope .dateTime (.dateTime t))
    (hs : s.Denotes host scope .timeSpan (.timeSpan x)) :
    Gives (method .dateTime (some a) "Subtract" [s]) host scope .dateTime
      (checkedDate (t.sub? x)) :=
  method_gives (b := .dateTime .subtract) ha rfl hs.alone rfl rfl

/-! ## Both -/

/-- What a sum evaluates to, if it does, is the date at the exact instant. -/
theorem plus_date {v : Value} {sum : Operand} (regular : t.nano < 10 ^ 9)
    (h : sum.Evaluates host scope .dateTime (checkedDate (t.add? x)))
    (value : sum.expr.eval host scope = .ok v) : ∃ w : DateTime,
      sum.Denotes host scope .dateTime (.dateTime w) ∧ w.nano < 10 ^ 9 ∧
        w.instant = t.instant + x.nanos := by
  have led := DateTime.add?_at x regular
  rw [← h.eval_eq, value] at led
  cases led with
  | date _ regular exact => exact ⟨_, ⟨h.ty_eq, value⟩, regular, exact⟩

/-- Dates outside leap seconds and spans are added and subtracted as the numbers of their
nanoseconds are, by the operators and by the methods, and where that leads out of the range there is
an overflow. -/
theorem date_arithmetic (ha : a.Denotes host scope .dateTime (.dateTime t))
    (hb : b.Denotes host scope .dateTime (.dateTime u))
    (hs : s.Evaluates host scope .timeSpan (.ok (.timeSpan x)))
    (hs' : s'.Evaluates host scope .timeSpan (.ok (.timeSpan x')))
    (within : t.inRange) (ht : t.nano < 10 ^ 9) (hu : u.nano < 10 ^ 9) :
    (∃ outcome, DateTime.At (t.instant + x.nanos) outcome ∧
      Gives (plus a s) host scope .dateTime outcome ∧
      Gives (method .dateTime (some a) "Add" [s]) host scope .dateTime outcome) ∧
    (∃ outcome, DateTime.At (t.instant - x.nanos) outcome ∧
      Gives (minus a s) host scope .dateTime outcome ∧
      Gives (method .dateTime (some a) "Subtract" [s]) host scope .dateTime outcome) ∧
    (∃ d : TimeSpan, d.nanos = t.instant - u.instant ∧
      Gives (minus a b) host scope .timeSpan (.ok (.timeSpan d)) ∧
      Gives (method .dateTime (some a) "Subtract" [b]) host scope .timeSpan (.ok (.timeSpan d))) ∧
    (∃ apart, (∀ pos, minus a b pos = .ok apart) ∧
      Gives (plus b apart) host scope .dateTime (.ok (.dateTime t))) ∧
    ∃ sum sum', (∀ pos, plus a s pos = .ok sum) ∧ (∀ pos, plus a s' pos = .ok sum') ∧
      ∀ v, sum.expr.eval host scope = .ok v →
        Gives (minus sum s) host scope .dateTime (.ok (.dateTime t)) ∧
        ∀ v', sum'.expr.eval host scope = .ok v' → ∃ answer,
          Gives (below s s') host scope .boolean (.ok (.boolean answer)) ∧
          Gives (below sum sum') host scope .boolean (.ok (.boolean answer)) := by
  obtain ⟨apart, made, spans⟩ := date_minus ha hb
  obtain ⟨sum, plus_s, dates⟩ := date_plus ha hs.denotes
  obtain ⟨sum', plus_s', dates'⟩ := date_plus ha hs'.denotes
  refine ⟨⟨_, DateTime.add?_at x ht, date_plus ha hs.denotes, date_add ha hs.denotes⟩,
    ⟨_, DateTime.sub?_at x ht, date_minus_span ha hs, date_subtract_span ha hs.denotes⟩,
    ⟨_, DateTime.nanos_difference ht hu, date_minus ha hb, date_subtract ha hb⟩,
    ⟨apart, made, ?_⟩, sum, sum', plus_s, plus_s', fun v value => ?_⟩
  · rw [← DateTime.add?_difference within ht hu]
    exact date_plus hb spans.denotes
  · obtain ⟨w, hw, regular, led⟩ := plus_date ht dates value
    refine ⟨?_, fun v' value' => ⟨_, span_below hs.denotes hs'.denotes, ?_⟩⟩
    · rw [← DateTime.sub?_add? within ht regular led]
      exact date_minus_span hw hs
    · obtain ⟨w', hw', regular', led'⟩ := plus_date ht dates' value'
      have answer : (w.compare w').isLT = (compare x.nanos x'.nanos).isLT := by
        rw [Bool.eq_iff_iff, DateTime.isLT_compare regular regular', led, led',
          Ordering.isLT_iff_eq_lt, Std.compare_eq_lt]
        omega
      rw [← answer]
      exact date_below hw hw'

private def twoTicks : TimeSpan := ⟨200, by decide⟩

theorem date_arithmetic_ends :
    let first := plain (.constant (.dateTime .minValue) .dateTime)
    let last := plain (.constant (.dateTime .maxValue) .dateTime)
    let s := plain (.constant (.timeSpan twoTicks) .timeSpan)
    last.Denotes .silent [] .dateTime (.dateTime .maxValue) ∧
      first.Denotes .silent [] .dateTime (.dateTime .minValue) ∧
      s.Evaluates .silent [] .timeSpan (.ok (.timeSpan twoTicks)) ∧
      DateTime.maxValue.inRange ∧ DateTime.maxValue.nano < 10 ^ 9 ∧
      DateTime.minValue.nano < 10 ^ 9 ∧
      Gives (plus last s) .silent [] .dateTime (.error .overflow) ∧
      ∃ d, (∀ pos, minus last first pos = .ok d) ∧
        Gives (plus first d) .silent [] .dateTime (.ok (.dateTime .maxValue)) := by
  intro first last s
  have hlast := denotes_constant .silent [] (.dateTime .maxValue) .dateTime
  have hfirst := denotes_constant .silent [] (.dateTime .minValue) .dateTime
  have hs := evaluates_constant .silent [] (.timeSpan twoTicks) .timeSpan
  obtain ⟨⟨outcome, led, sum, -⟩, -, -, apart, -⟩ := date_arithmetic hlast hfirst hs hs
    DateTime.inRange_maxValue (by decide) (by decide)
  cases led.unique (.outside (by decide))
  exact ⟨hlast, hfirst, hs, DateTime.inRange_maxValue, by decide, by decide, sum, apart⟩

end Operand
end TypedExpr
