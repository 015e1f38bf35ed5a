import TypedExpr.Proofs.Pieces

/-! # The grammar of texts of spans

A span is written as days alone, or as a clock with days before it or without them, and a minus sign
may stand before all of it. That is the grammar as it is documented, where numbers are digits, and
digits stand behind each point. The grammar that is accepted is the same but for its numbers, which
are integers of 64 bits with a sign of their own, and for the point, behind which nothing needs to
stand. Where signs stand only in front and no point ends the text, the two are one.
-/

namespace TypedExpr

open Token

/-! ## Signs -/

namespace Read

/-- Digits, or a sign and digits. -/
inductive SignedDigits : List Char → Int → Prop where
  | digits {ds} (h : IsDigits ds) : SignedDigits ds (decimal ds)
  | plus {ds} (h : IsDigits ds) : SignedDigits ('+' :: ds) (decimal ds)
  | minus {ds} (h : IsDigits ds) : SignedDigits ('-' :: ds) (-decimal ds)

variable {cs : List Char} {n : Int}

theorem int?_iff : int? cs = some n ↔ SignedDigits cs n := by
  have digits {ds : List Char} {m : Nat} (read : nat? ds = some m) :
      IsDigits ds ∧ m = decimal ds := by
    have shape := digits_of_nat? read
    exact ⟨shape, Option.some.inj (read.symm.trans (nat?_digits shape))⟩
  constructor
  · intro h
    unfold int? at h
    split at h
    all_goals
      obtain ⟨_, whole, rfl⟩ := Option.map_eq_some_iff.mp h
      obtain ⟨m, read, same⟩ := Option.bind_eq_some_iff.mp whole
      cases same
      obtain ⟨shape, rfl⟩ := digits read
    · exact .minus shape
    · exact .plus shape
    · exact .digits shape
  · intro h
    cases h with
    | digits h => exact int?_digits h
    | plus h => simp [int?, nat?_digits h]
    | minus h => exact int?_negative h

theorem notMem_digits {c : Char} {ds : List Char} (h : ∀ d ∈ ds, Text.isDigit d)
    (other : Text.isDigit c = false) : c ∉ ds :=
  fun there => absurd (h c there) (by rw [other]; decide)

theorem SignedDigits.notMem {c : Char} (h : SignedDigits cs n) (other : Text.isDigit c = false)
    (plus : c ≠ '+') (minus : c ≠ '-') : c ∉ cs := by
  cases h with
  | digits h => exact notMem_digits h.2 other
  | plus h => exact List.not_mem_cons_of_ne_of_not_mem plus (notMem_digits h.2 other)
  | minus h => exact List.not_mem_cons_of_ne_of_not_mem minus (notMem_digits h.2 other)

end Read

namespace TimeSpan

/-! ## The grammar -/

/-- What the numbers of a text are, and whether a point may stand with no digits behind it. -/
structure Dialect where
  Number : List Char → Int → Prop
  barePoint : Prop

namespace Dialect

/-- The digits behind a point, in nanoseconds. -/
structure Fraction (d : Dialect) (ds : List Char) (nanos : Nat) : Prop where
  digits : ∀ c ∈ ds, Text.isDigit c
  short : ds.length ≤ 7
  some : ds = [] → d.barePoint
  value : nanos = Read.decimal ds * 10 ^ (9 - ds.length)

/-- Seconds with a fraction or without one. -/
inductive Seconds (d : Dialect) : List Char → Int → Nat → Prop where
  | whole {cs n} (h : d.Number cs n) (le : n ≤ 59) : Seconds d cs n 0
  | fraction {cs ds n nanos} (h : d.Number cs n) (le : n ≤ 59) (hf : d.Fraction ds nanos) :
      Seconds d (cs ++ '.' :: ds) n nanos

/-- Hours and minutes, with seconds or without them, as seconds and nanoseconds. Bounds are set above
only, which is enough where numbers have no signs. -/
inductive Clock (d : Dialect) : List Char → Int → Nat → Prop where
  | minutes {h m hours minutes} (hh : d.Number h hours) (hoursLe : hours ≤ 23)
      (hm : d.Number m minutes) (minutesLe : minutes ≤ 59) :
      Clock d (h ++ ':' :: m) (hours * 3600 + minutes * 60) 0
  | seconds {h m s hours minutes seconds nanos} (hh : d.Number h hours) (hoursLe : hours ≤ 23)
      (hm : d.Number m minutes) (minutesLe : minutes ≤ 59) (hs : d.Seconds s seconds nanos) :
      Clock d (h ++ ':' :: (m ++ ':' :: s)) (hours * 3600 + minutes * 60 + seconds) nanos

end Dialect

/-- The days of a text, and the seconds and nanoseconds that its clock shows. -/
structure Shown where
  days : Int
  seconds : Int
  nanos : Nat

/-- Days, a clock, or both with a point in between. -/
inductive Dialect.Magnitude (d : Dialect) : List Char → Shown → Prop where
  | days {cs n} (h : d.Number cs n) : Magnitude d cs ⟨n, 0, 0⟩
  | clock {cs seconds nanos} (h : d.Clock cs seconds nanos) : Magnitude d cs ⟨0, seconds, nanos⟩
  | both {ds cs n seconds nanos} (hd : d.Number ds n) (h : d.Clock cs seconds nanos) :
      Magnitude d (ds ++ '.' :: cs) ⟨n, seconds, nanos⟩

/-- A text of the form, or a minus sign and such a text for the opposite number. -/
inductive Signed (form : List Char → Int → Prop) : List Char → Int → Prop where
  | plain {cs n} (h : form cs n) (unsigned : cs.head? ≠ some '-') : Signed form cs n
  | minus {cs n} (h : form cs n) : Signed form ('-' :: cs) (-n)

theorem signed_minus_iff {form : List Char → Int → Prop} {cs : List Char} {n : Int} :
    Signed form ('-' :: cs) n ↔ form cs (-n) := by
  constructor
  · intro h
    cases h with
    | plain _ unsigned => exact absurd rfl unsigned
    | minus h => rwa [Int.neg_neg]
  · intro h
    rw [← Int.neg_neg n]
    exact .minus h

theorem signed_plain_iff {form : List Char → Int → Prop} {cs : List Char} {n : Int}
    (unsigned : cs.head? ≠ some '-') : Signed form cs n ↔ form cs n := by
  refine ⟨fun h => ?_, fun h => .plain h unsigned⟩
  cases h with
  | plain h => exact h
  | minus => exact absurd rfl unsigned

/-! ## What is documented and what is accepted -/

/-- Numbers are digits, and digits stand behind a point. -/
def documented : Dialect := ⟨fun cs n => IsDigits cs ∧ n = Read.decimal cs, False⟩

/-- Numbers have any sign, as far as they are words of 64 bits, and a point may be the last. -/
def accepted : Dialect := ⟨fun cs n => Read.SignedDigits cs n ∧ IntKind.int64.Holds n, True⟩

/-- A span can have so many nanoseconds. -/
def InRange (nanos : Int) : Prop := nanos.natAbs ≤ 9223372036854775807000000

namespace Shown

/-- All nanoseconds together. -/
def total (f : Shown) : Int := (f.days * 86400 + f.seconds) * 10 ^ 9 + f.nanos

/-- The sum as it is made: the seconds are wrapped to 64 bits, and nothing on the way to the sum is
out of range. -/
structure AddsUp (f : Shown) (sum : Int) : Prop where
  days : InRange (f.days * 86400 * 10 ^ 9)
  seconds : InRange (f.seconds.bmod (2 ^ 64) * 10 ^ 9)
  both : InRange (f.days * 86400 * 10 ^ 9 + f.seconds.bmod (2 ^ 64) * 10 ^ 9)
  value : sum = f.days * 86400 * 10 ^ 9 + f.seconds.bmod (2 ^ 64) * 10 ^ 9 + f.nanos

end Shown

/-- The text shows this number of nanoseconds by the documented grammar. -/
def Documented : List Char → Int → Prop :=
  Signed fun cs n => ∃ f, documented.Magnitude cs f ∧ n = f.total

/-- The text shows this number of nanoseconds by the grammar that is accepted. -/
def Accepted : List Char → Int → Prop := Signed fun cs n => ∃ f, accepted.Magnitude cs f ∧ f.AddsUp n

/-- No sign stands behind another character, none is a plus sign, and no point is the last. -/
structure Plain (cs : List Char) : Prop where
  plus : '+' ∉ cs
  minus : '-' ∉ cs.tail
  point : cs.getLast? ≠ some '.'

/-! ## From one grammar to the other -/

namespace Dialect

variable {d d' : Dialect} {cs : List Char} {n : Int} {nanos : Nat}

/-- The same seconds in another grammar, if the numbers in them are numbers there, and a point at
the end may stand there. -/
theorem Seconds.imp (h : d.Seconds cs n nanos)
    (number : ∀ ds, (∀ c ∈ ds, c ∈ cs) → ∀ m ≤ 59, d.Number ds m → d'.Number ds m)
    (point : cs.getLast? = some '.' → d'.barePoint) : d'.Seconds cs n nanos := by
  cases h with
  | whole h le => exact .whole (number _ (fun c hc => hc) _ le h) le
  | @fraction cs ds _ _ h le hf =>
      refine .fraction (number _ (fun c hc => List.mem_append_left _ hc) _ le h) le
        ⟨hf.digits, hf.short, fun none => point ?_, hf.value⟩
      rw [none, List.getLast?_concat]

theorem Clock.imp (h : d.Clock cs n nanos)
    (number : ∀ ds, (∀ c ∈ ds, c ∈ cs) → ∀ m ≤ 59, d.Number ds m → d'.Number ds m)
    (point : cs.getLast? = some '.' → d'.barePoint) : d'.Clock cs n nanos := by
  cases h with
  | @minutes h m hours minutes hh hoursLe hm minutesLe =>
      exact .minutes (number h (by simp +contextual) hours (by omega) hh) hoursLe
        (number m (by simp +contextual) minutes minutesLe hm) minutesLe
  | @seconds h m s hours minutes seconds nanos hh hoursLe hm minutesLe hs =>
      have last : ∀ c ∈ s, c ∈ h ++ ':' :: (m ++ ':' :: s) := by simp +contextual
      refine .seconds (number h (by simp +contextual) hours (by omega) hh) hoursLe
        (number m (by simp +contextual) minutes minutesLe hm) minutesLe
        (hs.imp (fun ds within => number ds fun c hc => last c (within c hc)) fun ends => point ?_)
      simp [List.getLast?_append, List.getLast?_cons, ends]

/-- A clock begins with a number and a colon. -/
theorem Clock.opens (h : d.Clock cs n nanos) :
    ∃ h hours rest, d.Number h hours ∧ cs = h ++ ':' :: rest := by
  cases h with
  | minutes hh => exact ⟨_, _, _, hh, rfl⟩
  | seconds hh => exact ⟨_, _, _, hh, rfl⟩

theorem Clock.nanos_lt (h : d.Clock cs n nanos) : nanos < 10 ^ 9 := by
  cases h with
  | minutes => decide
  | seconds _ _ _ _ hs =>
      cases hs with
      | whole => decide
      | @fraction _ ds _ _ _ _ hf =>
          have small := Read.decimal_lt hf.digits
          have short := hf.short
          rw [hf.value]
          calc Read.decimal ds * 10 ^ (9 - ds.length)
              < 10 ^ ds.length * 10 ^ (9 - ds.length) :=
                Nat.mul_lt_mul_of_pos_right small (Nat.pow_pos (by decide))
            _ = 10 ^ 9 := by
                rw [← Nat.pow_add]
                congr 1
                omega

end Dialect

/-! ## Documented texts -/

section Documented

variable {cs a b : List Char} {n : Int} {nanos : Nat} {f : Shown}

/-- Digits, colons and points, the last of them a digit. -/
structure Clean (cs : List Char) : Prop where
  only : ∀ c ∈ cs, Text.isDigit c ∨ c ∈ [':', '.']
  last : ∃ c ∈ cs.getLast?, Text.isDigit c

theorem clean_digits (h : IsDigits cs) : Clean cs := by
  refine ⟨fun c hc => .inl (h.2 c hc), cs.getLast h.1, ?_, h.2 _ (List.getLast_mem h.1)⟩
  exact List.getLast?_eq_some_getLast h.1

theorem Clean.join {sep : Char} (ha : Clean a) (hsep : sep ∈ [':', '.']) (hb : Clean b) :
    Clean (a ++ sep :: b) := by
  refine ⟨fun c hc => ?_, ?_⟩
  · rcases List.mem_append.mp hc with hc | hc
    · exact ha.only c hc
    · rcases List.mem_cons.mp hc with rfl | hc
      · exact .inr hsep
      · exact hb.only c hc
  · obtain ⟨c, last, digit⟩ := hb.last
    refine ⟨c, ?_, digit⟩
    simp [List.getLast?_append, List.getLast?_cons, Option.mem_def.mp last]

theorem Clean.notMem {c : Char} (h : Clean cs) (other : Text.isDigit c = false)
    (none : c ∉ [':', '.']) : c ∉ cs := by
  intro there
  rcases h.only c there with digit | separator
  · rw [other] at digit
    cases digit
  · exact none separator

theorem Clean.point (h : Clean cs) : cs.getLast? ≠ some '.' := by
  intro point
  obtain ⟨c, last, digit⟩ := h.last
  cases last.symm.trans point
  cases digit

theorem clean_clock (h : documented.Clock cs n nanos) : Clean cs := by
  have colon : ':' ∈ [':', '.'] := by decide
  cases h with
  | minutes hh _ hm => exact (clean_digits hh.1).join colon (clean_digits hm.1)
  | seconds hh _ hm _ hs =>
      refine (clean_digits hh.1).join colon ((clean_digits hm.1).join colon ?_)
      cases hs with
      | whole h => exact clean_digits h.1
      | fraction h _ hf =>
          exact (clean_digits h.1).join (by decide) (clean_digits ⟨hf.some, hf.digits⟩)

theorem clean_magnitude (h : documented.Magnitude cs f) : Clean cs := by
  cases h with
  | days h => exact clean_digits h.1
  | clock h => exact clean_clock h
  | both hd h => exact (clean_digits hd.1).join (by decide) (clean_clock h)

/-- A clock shows no whole day. -/
theorem clock_bounds (h : documented.Clock cs n nanos) : 0 ≤ n ∧ n < 86400 := by
  cases h with
  | minutes hh _ hm =>
      have hours := hh.2
      have minutes := hm.2
      omega
  | seconds hh _ hm _ hs =>
      have hours := hh.2
      have minutes := hm.2
      cases hs with
      | whole h | fraction h =>
          have seconds := h.2
          omega

theorem magnitude_bounds (h : documented.Magnitude cs f) :
    0 ≤ f.days ∧ 0 ≤ f.seconds ∧ f.seconds < 86400 ∧ f.nanos < 10 ^ 9 := by
  cases h with
  | days h =>
      have days := h.2
      simp only
      omega
  | clock h =>
      obtain ⟨seconds, day⟩ := clock_bounds h
      exact ⟨Int.le_refl 0, seconds, day, h.nanos_lt⟩
  | both hd h =>
      obtain ⟨seconds, day⟩ := clock_bounds h
      exact ⟨hd.2 ▸ Int.natCast_nonneg _, seconds, day, h.nanos_lt⟩

/-- Nothing on the way to a sum in range is out of it. -/
theorem addsUp_total (h : documented.Magnitude cs f) (within : InRange f.total) :
    f.AddsUp f.total := by
  obtain ⟨days, seconds, day, nanos⟩ := magnitude_bounds h
  have exact : f.seconds.bmod (2 ^ 64) = f.seconds := Int.bmod_eq_of_le (by omega) (by omega)
  unfold InRange Shown.total at within
  refine ⟨?_, ?_, ?_, ?_⟩
  all_goals
    simp only [InRange, exact, Shown.total]
    omega

theorem total_of_addsUp (h : documented.Magnitude cs f) (sum : f.AddsUp n) : n = f.total := by
  obtain ⟨-, seconds, day, -⟩ := magnitude_bounds h
  have exact : f.seconds.bmod (2 ^ 64) = f.seconds := Int.bmod_eq_of_le (by omega) (by omega)
  rw [sum.value, exact, Shown.total]
  ring

end Documented

/-! ## Where the grammars are one -/

section Grammars

variable {cs : List Char} {n : Int} {nanos : Nat} {f : Shown}

theorem accepted_number (h : documented.Number cs n) (le : n < 2 ^ 63) : accepted.Number cs n := by
  obtain ⟨digits, rfl⟩ := h
  have bounds : IntKind.int64.low = -2 ^ 63 ∧ IntKind.int64.high = 2 ^ 63 - 1 := by decide
  exact ⟨.digits digits, by omega, by omega⟩

theorem documented_number (h : accepted.Number cs n) (plus : '+' ∉ cs) (minus : '-' ∉ cs) :
    documented.Number cs n := by
  obtain ⟨digits, -⟩ := h
  cases digits with
  | digits digits => exact ⟨digits, rfl⟩
  | plus => exact absurd List.mem_cons_self plus
  | minus => exact absurd List.mem_cons_self minus

theorem accepted_magnitude (h : documented.Magnitude cs f) (days : f.days < 2 ^ 63) :
    accepted.Magnitude cs f := by
  have clock {cs : List Char} {n : Int} {nanos : Nat} (h : documented.Clock cs n nanos) :
      accepted.Clock cs n nanos :=
    h.imp (fun ds _ m le h => accepted_number h (by omega)) fun _ => trivial
  cases h with
  | days h => exact .days (accepted_number h days)
  | clock h => exact .clock (clock h)
  | both hd h => exact .both (accepted_number hd days) (clock h)

theorem documented_magnitude (h : accepted.Magnitude cs f) (plus : '+' ∉ cs) (minus : '-' ∉ cs)
    (point : cs.getLast? ≠ some '.') : documented.Magnitude cs f := by
  cases h with
  | days h => exact .days (documented_number h plus minus)
  | clock h =>
      refine .clock (h.imp (fun ds within m _ h => ?_) fun ends => point ends)
      exact documented_number h (mt (within _) plus) (mt (within _) minus)
  | @both ds cs n seconds nanos hd h =>
      have behind {c : Char} (free : c ∉ ds ++ '.' :: cs) : c ∉ ds ∧ c ∉ cs := by
        simp only [List.mem_append, List.mem_cons, not_or] at free
        exact ⟨free.1, free.2.2⟩
      refine .both (documented_number hd (behind plus).1 (behind minus).1)
        (h.imp (fun ds within m _ h => ?_) fun ends => point ?_)
      · exact documented_number h (mt (within _) (behind plus).2) (mt (within _) (behind minus).2)
      · simp [List.getLast?_append, List.getLast?_cons, ends]

theorem minus_point_iff : ('-' :: cs).getLast? = some '.' ↔ cs.getLast? = some '.' := by
  cases cs with
  | nil => simp
  | cons c cs => rw [List.getLast?_cons_cons]

theorem plain_of_documented (h : Documented cs n) : Plain cs := by
  have clean {cs : List Char} {f : Shown} (h : documented.Magnitude cs f) :
      '+' ∉ cs ∧ '-' ∉ cs ∧ cs.getLast? ≠ some '.' :=
    have clean := clean_magnitude h
    ⟨clean.notMem rfl (by decide), clean.notMem rfl (by decide), clean.point⟩
  cases h with
  | plain h =>
      obtain ⟨f, shown, -⟩ := h
      obtain ⟨plus, minus, point⟩ := clean shown
      exact ⟨plus, mt List.mem_of_mem_tail minus, point⟩
  | minus h =>
      obtain ⟨f, shown, -⟩ := h
      obtain ⟨plus, minus, point⟩ := clean shown
      exact ⟨List.not_mem_cons_of_ne_of_not_mem (by decide) plus, minus, mt minus_point_iff.mp point⟩

/-- What is documented is accepted, as long as it is in range. -/
theorem accepted_of_documented (h : Documented cs n) (within : InRange n) : Accepted cs n := by
  have both {cs : List Char} {f : Shown} (h : documented.Magnitude cs f)
      (within : InRange f.total) : accepted.Magnitude cs f ∧ f.AddsUp f.total := by
    have sum := addsUp_total h within
    have days := sum.days
    unfold InRange at days
    exact ⟨accepted_magnitude h (by omega), sum⟩
  cases h with
  | plain h unsigned =>
      obtain ⟨f, shown, rfl⟩ := h
      exact .plain ⟨f, both shown within⟩ unsigned
  | minus h =>
      obtain ⟨f, shown, rfl⟩ := h
      rw [InRange, Int.natAbs_neg] at within
      exact .minus ⟨f, both shown within⟩

theorem documented_of_plain (h : Accepted cs n) (plain : Plain cs) : Documented cs n := by
  obtain ⟨plus, minus, point⟩ := plain
  cases h with
  | @plain cs n h unsigned =>
      obtain ⟨f, shown, sum⟩ := h
      have minus : '-' ∉ cs := by
        cases cs with
        | nil => exact List.not_mem_nil
        | cons c cs =>
            refine List.not_mem_cons_of_ne_of_not_mem (fun same => unsigned ?_) minus
            rw [← same, List.head?_cons]
      have shown := documented_magnitude shown plus minus point
      exact .plain ⟨f, shown, total_of_addsUp shown sum⟩ unsigned
  | @minus cs n h =>
      obtain ⟨f, shown, sum⟩ := h
      have shown := documented_magnitude shown (mt (List.mem_cons_of_mem _) plus) minus
        (mt minus_point_iff.mpr point)
      exact .minus ⟨f, shown, total_of_addsUp shown sum⟩

/-- The documented texts are the accepted ones that are plain. -/
theorem documented_iff (within : InRange n) : Documented cs n ↔ Accepted cs n ∧ Plain cs :=
  ⟨fun h => ⟨accepted_of_documented h within, plain_of_documented h⟩,
    fun h => documented_of_plain h.1 h.2⟩

end Grammars

end TimeSpan
end TypedExpr
