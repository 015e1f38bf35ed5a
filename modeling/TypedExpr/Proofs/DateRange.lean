import TypedExpr.Eval.TimeMembers
import Mathlib

/-! # The range of dates

The days of the years 1 to 9999 are numbered from 0 to 3652058, whatever the lengths of their
months. What a span, a number of months or a constructor says exactly can lie outside; then there is
an error and no date.
-/

namespace TypedExpr

namespace Calendar

/-- A year has 365 days, and one more in a leap year. -/
theorem daysBefore_succ (year : Int) :
    daysBefore (year + 1) = daysBefore year + if isLeapYear year then 366 else 365 := by
  simp only [daysBefore, isLeapYear, Bool.and_eq_true, Bool.or_eq_true, beq_iff_eq, bne_iff_ne]
  split <;> omega

theorem daysBefore_monotone : Monotone daysBefore := by
  refine monotone_int_of_le_succ fun year => ?_
  rw [daysBefore_succ]
  split <;> omega

theorem sum_monthLengths (year : Int) :
    (monthLengths year).sum = if isLeapYear year then 366 else 365 := by
  unfold monthLengths
  cases isLeapYear year <;> rfl

/-- A day lies within its year. -/
theorem dayNumber?_within {year month day n : Int} (h : dayNumber? year month day = some n) :
    daysBefore year ≤ n ∧ n < daysBefore (year + 1) := by
  simp only [dayNumber?, Option.bind_eq_bind, Option.bind_eq_some_iff] at h
  obtain ⟨length, hlength, h⟩ := h
  have here : (monthLengths year)[month.toNat - 1]? = some length := by
    simp only [daysInMonth?] at hlength
    split at hlength
    · cases hlength
    · exact hlength
  obtain ⟨inside, rfl⟩ := List.getElem?_eq_some_iff.mp here
  split at h
  · rename_i valid
    simp only [Bool.and_eq_true, decide_eq_true_eq] at valid
    -- the months up to this one are some of the months of the year
    have months := List.sum_take_add_sum_drop (monthLengths year) (month.toNat - 1 + 1)
    rw [List.sum_take_succ _ _ inside, sum_monthLengths] at months
    rw [← List.sum_eq_foldl] at h
    cases h
    rw [daysBefore_succ]
    cases leap : isLeapYear year
    all_goals
      simp only [leap, if_true, Bool.false_eq_true, if_false] at months ⊢
      omega
  · cases h

end Calendar

namespace DateTime

variable {t u : DateTime}

theorem isLE_compare : (t.compare u).isLE ↔ t.day < u.day ∨ t.day = u.day ∧
    (t.second < u.second ∨ t.second = u.second ∧ t.nano ≤ u.nano) := by
  simp [DateTime.compare, Ordering.isLE_then_iff_or, Nat.isLE_compare, Std.compare_eq_lt]

theorem inRange_iff : t.inRange ↔ 0 ≤ t.day ∧ (t.day < 3652058 ∨ t.day = 3652058 ∧
    (t.second < 86399 ∨ t.second = 86399 ∧ t.nano ≤ 999999900)) := by
  simp only [inRange, Bool.and_eq_true, isLE_compare, minValue, maxValue]
  omega

theorem inRange_minValue : minValue.inRange := by decide

theorem inRange_maxValue : maxValue.inRange := by decide

/-- The start of the day is in the range with the day. -/
theorem inRange_midnight (h : t.inRange) : t.midnight.inRange := by
  rw [inRange_iff] at h ⊢
  simp only [midnight]
  omega

theorem make?_some {day : Int} {second nano : Nat} (h : make? day second nano = some t) :
    t.day = day ∧ t.second = second ∧ t.nano = nano := by
  unfold make? at h
  split at h
  · cases h
    exact ⟨rfl, rfl, rfl⟩
  · cases h

/-- Nanoseconds from the start of the year one. -/
def instant (t : DateTime) : Int := (t.day * 86400 + t.second) * 10 ^ 9 + t.nano

/-- The span leads from the date to before the start of the year one or to after the end of the
    range. A leap second that it leads out of does not count. -/
def LeavesBy (t : DateTime) (s : TimeSpan) : Prop :=
  t.instant + s.nanos < minValue.instant ∨
    maxValue.instant < t.instant + s.nanos - if t.nano < 10 ^ 9 then 0 else 10 ^ 9

/-- So many months from the date lies another year than those of the range. -/
def LeavesByMonths (t : DateTime) (months : Int) : Prop :=
  let year := (t.year * 12 + (t.month - 1 : Nat) + months) / 12
  year < 1 ∨ 9999 < year

theorem instant_minValue : minValue.instant = 0 := rfl

theorem instant_maxValue : maxValue.instant = 315537897599999999900 := rfl

/-- A span leads to the time of day that it says, or stays in a leap second, or leaves one behind
    that does not count. -/
theorem advance_cases (second nano : Nat) (s : TimeSpan) :
    let time := advance second nano s
    let exact : Int := second * 10 ^ 9 + nano + s.nanos
    0 ≤ time.2 ∧
      (time.2 < 10 ^ 9 ∧ time.1 * 10 ^ 9 + time.2 = exact ∨
        10 ^ 9 ≤ nano ∧ time.1 = second ∧ time.1 * 10 ^ 9 + time.2 = exact ∨
        10 ^ 9 ≤ nano ∧ time.2 < 10 ^ 9 ∧ time.1 * 10 ^ 9 + time.2 = exact - 10 ^ 9) := by
  have parts : 10 ^ 9 * s.seconds + s.subsecond = s.nanos := Int.mul_tdiv_add_tmod _ _
  have low : -(10 ^ 9) < s.subsecond := Int.lt_tmod_of_pos _ (by decide)
  simp only [advance]
  split_ifs <;> omega

/-- The day and the time of day that a span leads to. -/
theorem add?_some {s : TimeSpan} (h : t.add? s = some u) :
    u.day = t.day + (advance t.second t.nano s).1 / 86400 ∧
      u.second = (advance t.second t.nano s).1 % 86400 ∧
      u.nano = (advance t.second t.nano s).2 := by
  have made : make? (t.day + (advance t.second t.nano s).1 / 86400)
      ((advance t.second t.nano s).1 % 86400).toNat (advance t.second t.nano s).2.toNat =
      some u := h
  obtain ⟨day, second, nano⟩ := make?_some made
  have low := (advance_cases t.second t.nano s).1
  exact ⟨day, by omega, by omega⟩

/-- Outside a leap second a span leads to just the instant that it says. -/
theorem instant_add? {s : TimeSpan} (h : t.add? s = some u) (regular : t.nano < 10 ^ 9) :
    u.instant = t.instant + s.nanos := by
  obtain ⟨low, cases⟩ := advance_cases t.second t.nano s
  obtain ⟨day, second, nano⟩ := add?_some h
  simp only [instant]
  omega

/-- A span that leads out of the range leads to no date of the range. -/
theorem LeavesBy.not_inRange {s : TimeSpan} (hl : t.LeavesBy s) (h : t.add? s = some u) :
    ¬ u.inRange := by
  obtain ⟨low, cases⟩ := advance_cases t.second t.nano s
  obtain ⟨day, second, nano⟩ := add?_some h
  have here := t.second_lt
  have there := u.nano_lt
  rw [inRange_iff]
  rw [LeavesBy, instant_minValue, instant_maxValue, instant] at hl
  omega

/-- So many months that lead to another year than those of the range lead to no date of it. -/
theorem LeavesByMonths.not_inRange {months : Int} (hl : t.LeavesByMonths months)
    (h : t.addMonths? months = some u) : ¬ u.inRange := by
  simp only [addMonths?, Option.bind_eq_bind, Option.bind_eq_some_iff] at h
  obtain ⟨length, -, n, number, made⟩ := h
  obtain ⟨low, high⟩ := Calendar.dayNumber?_within number
  obtain ⟨day, -, -⟩ := make?_some made
  have ends : Calendar.daysBefore 1 = 0 ∧ Calendar.daysBefore (9999 + 1) = 3652059 := by decide
  rw [inRange_iff]
  simp only [LeavesByMonths, month] at hl
  rcases hl with before | after
  · have := Calendar.daysBefore_monotone (Int.add_one_le_of_lt before)
    omega
  · have := Calendar.daysBefore_monotone (Int.add_one_le_of_lt after)
    omega

/-- A date of the years 1 to 9999, at any whole second. -/
theorem inRange_ofParts? {year month day hour minute second : Int}
    (h : ofParts? year month day hour minute second = some t) (first : 1 ≤ year)
    (last : year ≤ 9999) : t.inRange := by
  simp only [ofParts?, Option.bind_eq_bind, Option.bind_eq_some_iff] at h
  obtain ⟨n, number, h⟩ := h
  obtain ⟨low, high⟩ := Calendar.dayNumber?_within number
  have lowest := Calendar.daysBefore_monotone first
  have highest := Calendar.daysBefore_monotone (Int.add_le_add_right last 1)
  have ends : Calendar.daysBefore 1 = 0 ∧ Calendar.daysBefore (9999 + 1) = 3652059 := by decide
  split at h
  · obtain ⟨day, -, nano⟩ := make?_some h
    have bound := t.second_lt
    rw [inRange_iff]
    omega
  · cases h

end DateTime

theorem DateTimeMethod.inRange_ofNumbers {numbers : List Int} {t : DateTime}
    (h : ofNumbers numbers = some t) : t.inRange := by
  have inYears {year : Int} {o : Option DateTime} (h : ofNumbers.inYears year o = some t) :
      o = some t ∧ 1 ≤ year ∧ year ≤ 9999 := by
    unfold ofNumbers.inYears at h
    split at h
    · exact ⟨h, ‹_›⟩
    · cases h
  unfold ofNumbers at h
  split at h
  · obtain ⟨made, first, last⟩ := inYears h
    exact DateTime.inRange_ofParts? made first last
  · obtain ⟨made, first, last⟩ := inYears h
    exact DateTime.inRange_ofParts? made first last
  · cases h

/-! ## Computations that leave the range -/

theorem BinaryOp.checkedDate_fails {o : Option DateTime} (h : ∀ t, o = some t → ¬ t.inRange) :
    checkedDate o = .error .overflow := by
  cases o with
  | none => rfl
  | some t => exact if_neg (h t rfl)

namespace DateTimeMethod

/-- The exact date that a method computes from a date lies outside the range. -/
inductive Leaves (t : DateTime) : DateTimeMethod → List Value → Prop where
  | add {s} (h : t.LeavesBy s) : Leaves t .add [.timeSpan s]
  | subtract {s} (h : t.LeavesBy s.neg) : Leaves t .subtract [.timeSpan s]
  | addUnits {u v x s} (hv : v.asFloat = .ok x) (hs : u.span x = .ok s) (h : t.LeavesBy s) :
      Leaves t (.addUnits u) [v]
  | addMonths {n} (h : t.LeavesByMonths n.val) : Leaves t .addMonths [.integer .int32 n]
  | addYears {n} (h : t.LeavesByMonths (n.val * 12)) : Leaves t .addYears [.integer .int32 n]

/-- A method that would compute a date outside the range overflows. -/
theorem Leaves.fails {t : DateTime} {m : DateTimeMethod} {args : List Value}
    (h : m.Leaves t args) : m.call (.dateTime t) args = .error .overflow := by
  cases h with
  | add h => exact BinaryOp.checkedDate_fails fun u => h.not_inRange
  | subtract h => exact BinaryOp.checkedDate_fails fun u => h.not_inRange
  | @addUnits u v x s hv hs h =>
      change (v.asFloat >>= fun x => u.span x >>= fun s => BinaryOp.checkedDate (t.add? s)) = _
      rw [hv]
      change (u.span x >>= fun s => BinaryOp.checkedDate (t.add? s)) = _
      rw [hs]
      exact BinaryOp.checkedDate_fails fun u => h.not_inRange
  | addMonths h => exact BinaryOp.checkedDate_fails fun u => h.not_inRange
  | @addYears n h =>
      change (Outcome.ofOption .overflow (IntKind.int32.ofInt? (n.val * 12)) >>= fun months =>
        BinaryOp.checkedDate (t.addMonths? months.val)) = _
      cases months : IntKind.int32.ofInt? (n.val * 12) with
      | none => rfl
      | some k =>
          obtain ⟨-, ⟨⟩⟩ := Option.dite_none_right_eq_some.mp months
          exact BinaryOp.checkedDate_fails fun u => h.not_inRange

/-- No date is constructed in a year outside the range. -/
theorem new_fails (receiver : Value) {year : IntKind.int32.Word} {args : List Value}
    (h : year.val < 1 ∨ 9999 < year.val) :
    ∃ e, call .new receiver (.integer .int32 year :: args) = .error e := by
  have outside (rest : List Int) : ofNumbers (year.val :: rest) = none := by
    have refused (t : Option DateTime) : ofNumbers.inYears year.val t = none := if_neg (by omega)
    match rest with
    | [_, _] | [_, _, _, _, _] => exact refused _
    | [] | [_] | [_, _, _] | [_, _, _, _] | _ :: _ :: _ :: _ :: _ :: _ :: _ => rfl
  simp only [call, List.mapM_cons, Value.asInt32]
  cases numbers : args.mapM Value.asInt32 with
  | error e => exact ⟨e, rfl⟩
  | ok rest =>
      refine ⟨.invalidArgument "The arguments describe an unrepresentable DateTime", ?_⟩
      change Outcome.ofOption _ ((ofNumbers (year.val :: rest)).map Value.dateTime) = _
      rw [outside]
      rfl

end DateTimeMethod

end TypedExpr
