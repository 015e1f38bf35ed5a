import TypedExpr.Proofs.Calendar
import TypedExpr.Proofs.Integer
import TypedExpr.Proofs.MemberCalls

/-! # Members that know the calendar

The constructor of dates, their properties, the lengths of months, leap years, and the methods that
add months and years go by one calendar: what one of them makes or says, the others read in the same
way.
-/

namespace TypedExpr

open Calendar

namespace DateTimeMethod

variable {y m d h mi s : Int} {t : DateTime}

/-- In the range the members and the calendar have the same months. -/
theorem daysInMonth?_eq (within : 1 ≤ y ∧ y ≤ 9999) :
    daysInMonth? y m = Calendar.daysInMonth? y m := by
  have here : hasYear y := hasYear_iff.mpr (by omega)
  have next : hasYear (y + 1) := hasYear_iff.mpr (by omega)
  simp [daysInMonth?, here, next]

theorem daysInMonth?_february (within : 1 ≤ y ∧ y ≤ 9999) :
    daysInMonth? y 2 = some (if Calendar.isLeapYear y then 29 else 28) := by
  rw [daysInMonth?_eq within]
  rfl

/-- The numbers name a date of the range and a second of its day. -/
structure Named (y m d h mi s : Int) : Prop where
  year : 1 ≤ y ∧ y ≤ 9999
  month : 1 ≤ m ∧ m ≤ 12
  day : 1 ≤ d ∧ ∃ length, daysInMonth? y m = some length ∧ d ≤ length
  hour : 0 ≤ h ∧ h < 24
  minute : 0 ≤ mi ∧ mi < 60
  second : 0 ≤ s ∧ s < 60

theorem ofNumbers_iff : ofNumbers [y, m, d, h, mi, s] = some t ↔ Named y m d h mi s ∧
    dayNumber? y m d = some t.day ∧ (t.second : Int) = h * 3600 + mi * 60 + s ∧ t.nano = 0 := by
  have inYears : ofNumbers [y, m, d, h, mi, s] = some t ↔
      (1 ≤ y ∧ y ≤ 9999) ∧ DateTime.ofParts? y m d h mi s = some t := by
    simp only [ofNumbers, ofNumbers.inYears]
    split <;> simp [*]
  rw [inYears, DateTime.ofParts?_iff]
  constructor
  · rintro ⟨within, number, hour, minute, second, time, nano⟩
    obtain ⟨-, length, found, first, last, -⟩ := dayNumber?_iff.mp number
    have month := (daysInMonth?_iff.mp found).1
    rw [← daysInMonth?_eq within] at found
    exact ⟨⟨within, ⟨month, month_le_twelve (daysInMonth?_eq within ▸ found)⟩,
      ⟨first, length, found, last⟩, hour, minute, second⟩, number, time, nano⟩
  · rintro ⟨⟨within, -, -, hour, minute, second⟩, number, time, nano⟩
    exact ⟨within, number, hour, minute, second, time, nano⟩

/-- What the numbers name exists. -/
theorem Named.exists_date (named : Named y m d h mi s) :
    ∃ t, ofNumbers [y, m, d, h, mi, s] = some t := by
  obtain ⟨first, length, found, last⟩ := named.day
  rw [daysInMonth?_eq named.year] at found
  have number : dayNumber? y m d = some _ := dayNumber?_iff.mpr
    ⟨hasYear_iff.mpr (by have := named.year; omega), length, found, first, last, rfl⟩
  have hour := named.hour
  have minute := named.minute
  have second := named.second
  have clock : (h * 3600 + mi * 60 + s).toNat < 86400 := by omega
  obtain ⟨t, made⟩ := DateTime.exists_make? number clock (show 0 < 2000000000 by decide)
  obtain ⟨day, time, nano⟩ := DateTime.make?_some made
  refine ⟨t, ofNumbers_iff.mpr ⟨named, ?_, by omega, nano⟩⟩
  rw [number, day]

end DateTimeMethod

namespace DateTime

variable {t u : DateTime} {n : Int}

/-! ## Months -/

/-- The date is so many months after the other one, at the same time of the same day of the month,
or of the last one if the month is shorter. -/
structure MonthsLater (t : DateTime) (n : Int) (u : DateTime) : Prop where
  index : 12 * u.year + u.month = 12 * t.year + t.month + n
  day : ∃ length, DateTimeMethod.daysInMonth? u.year u.month = some length ∧
    u.dayOfMonth = min t.dayOfMonth length
  second : u.second = t.second
  nano : u.nano = t.nano

/-- The outcome of adding months: the date is reported unless it lies outside the range, be it in
another year or behind the last instant. -/
inductive Shifted (t : DateTime) (n : Int) : Outcome Value → Prop where
  | date {u : DateTime} (later : t.MonthsLater n u) (within : u.inRange) :
    Shifted t n (.ok (.dateTime u))
  | outside (h : t.LeavesByMonths n ∨ ∃ u, t.MonthsLater n u ∧ ¬ u.inRange) :
    Shifted t n (.error .overflow)

theorem month_bounds (t : DateTime) : 1 ≤ t.month ∧ t.month ≤ 12 ∧ 1 ≤ t.dayOfMonth := by
  obtain ⟨-, length, found, first, -, -⟩ := dayNumber?_iff.mp t.dayNumber?_parts
  have month := (daysInMonth?_iff.mp found).1
  have last := month_le_twelve found
  omega

theorem eq_of_parts (day : dayNumber? t.year t.month t.dayOfMonth = some u.day)
    (second : u.second = t.second) (nano : u.nano = t.nano) : u = t := by
  have same : u.day = t.day := Option.some_inj.mp (day.symm.trans t.dayNumber?_parts)
  cases t
  cases u
  simp_all

/-- There is one such date at most. -/
theorem MonthsLater.unique {u' : DateTime} (h : t.MonthsLater n u) (h' : t.MonthsLater n u') :
    u' = u := by
  obtain ⟨first, last, -⟩ := u.month_bounds
  obtain ⟨first', last', -⟩ := u'.month_bounds
  have index := h.index.trans h'.index.symm
  have year : u.year = u'.year := by omega
  have month : u.month = u'.month := by omega
  obtain ⟨length, found, day⟩ := h.day
  obtain ⟨length', found', day'⟩ := h'.day
  rw [year, month, found'] at found
  cases found
  refine eq_of_parts ?_ (h'.second.trans h.second.symm) (h'.nano.trans h.nano.symm)
  rw [year, month, day, ← day', dayNumber?_parts]

theorem MonthsLater.not_leaves (h : t.MonthsLater n u) (within : u.inRange) :
    ¬ t.LeavesByMonths n := by
  have years := year_within within
  have bounds := u.month_bounds
  have bounds' := t.month_bounds
  have index := h.index
  simp only [LeavesByMonths]
  omega

/-- Adding months has one outcome. -/
theorem Shifted.unique {outcome outcome' : Outcome Value} (h : Shifted t n outcome)
    (h' : Shifted t n outcome') : outcome = outcome' := by
  have excluded {u : DateTime} (later : t.MonthsLater n u) (within : u.inRange) :
      ¬ (t.LeavesByMonths n ∨ ∃ u, t.MonthsLater n u ∧ ¬ u.inRange) := by
    rintro (leaves | ⟨u', later', beyond⟩)
    · exact later.not_leaves within leaves
    · exact beyond (later.unique later' ▸ within)
  cases h with
  | date later within =>
      cases h' with
      | date later' => rw [later.unique later']
      | outside h => exact absurd h (excluded later within)
  | outside h =>
      cases h' with
      | date later within => exact absurd h (excluded later within)
      | outside => rfl

/-- Within the years of the range there is a date so many months later. -/
theorem exists_addMonths? (inside : ¬ t.LeavesByMonths n) :
    ∃ u, t.addMonths? n = some u ∧ t.MonthsLater n u := by
  obtain ⟨first, last, day⟩ := t.month_bounds
  have index : ∃ year month : Int, year = (t.year * 12 + (t.month - 1 : Nat) + n) / 12 ∧
      month = (t.year * 12 + (t.month - 1 : Nat) + n) % 12 + 1 := ⟨_, _, rfl, rfl⟩
  obtain ⟨year, month, hyear, hmonth⟩ := index
  have within : 1 ≤ year ∧ year ≤ 9999 := by
    simp only [LeavesByMonths] at inside
    omega
  obtain ⟨length, found, long, -⟩ :=
    exists_daysInMonth? year (show 1 ≤ month by omega) (by omega)
  have number : dayNumber? year month (min t.dayOfMonth length : Nat) = some _ :=
    dayNumber?_iff.mpr
      ⟨hasYear_iff.mpr (by omega), length, found, by omega, by omega, rfl⟩
  obtain ⟨u, made⟩ := exists_make? number t.second_lt t.nano_lt
  obtain ⟨there, second, nano⟩ := make?_some made
  rw [← there] at number
  obtain ⟨year_eq, month_eq, day_eq, -⟩ := parts_eq number
  refine ⟨u, ?_, ⟨by omega, ⟨length, ?_, by omega⟩, second, nano⟩⟩
  · have steps : t.addMonths? n = (daysInMonth? year month).bind fun length =>
        (dayNumber? year month (min t.dayOfMonth length : Nat)).bind fun day =>
          make? day t.second t.nano := by
      simp only [Nat.cast_min]
      rw [hyear, hmonth]
      rfl
    rw [steps, found]
    change (dayNumber? year month (min t.dayOfMonth length : Nat)).bind _ = _
    rw [number, there]
    exact made
  · rw [year_eq, month_eq, DateTimeMethod.daysInMonth?_eq within, found]

theorem addMonths?_shifted (t : DateTime) (n : Int) :
    Shifted t n (BinaryOp.checkedDate (t.addMonths? n)) := by
  by_cases leaves : t.LeavesByMonths n
  · rw [BinaryOp.checkedDate_fails fun u => leaves.not_inRange]
    exact .outside (.inl leaves)
  · obtain ⟨u, made, later⟩ := exists_addMonths? leaves
    rw [made, BinaryOp.checkedDate]
    split
    · exact .date later ‹_›
    · exact .outside (.inr ⟨u, later, ‹_›⟩)

end DateTime

namespace Operand

variable {host : Host} {scope : Scope} {o a k l : Operand} {t : DateTime} {name name' : String}

/-! ## Properties -/

/-- The member of this name is a number of 32 bits, and this one. -/
def Tells (o : Operand) (host : Host) (scope : Scope) (name : String) (n : Int) : Prop :=
  ∃ w : IntKind.int32.Word, w.val = n ∧
    Gives (property o.ty (some o) name) host scope .int32 (.ok (.integer .int32 w))

theorem tells_of_part {p : DatePart} {n : Int} (h : o.Denotes host scope .dateTime (.dateTime t))
    (found : Catalog.property? .dateTime name false =
      some (Catalog.computed name' .int32 (.dateTime p)))
    (value : p.get t = .int32 n) (fits : -2 ^ 31 ≤ n ∧ n < 2 ^ 31) :
    o.Tells host scope name n := by
  refine ⟨IntKind.int32.wrap n, IntKind.wrap_val (IntKind.holds_int32.mpr fits), ?_⟩
  rw [h.ty_eq]
  change Gives _ host scope .int32 (.ok (.int32 n))
  rw [← value]
  exact property_gives h found

/-- The properties of a date are its parts. -/
theorem date_tells (h : o.Denotes host scope .dateTime (.dateTime t)) :
    (o.Tells host scope "Year" t.year ∧ o.Tells host scope "Month" t.month ∧
      o.Tells host scope "Day" t.dayOfMonth ∧ o.Tells host scope "DayOfYear" t.dayOfYear) ∧
    o.Tells host scope "Hour" t.hour ∧ o.Tells host scope "Minute" t.minute ∧
      o.Tells host scope "Second" t.secondOfMinute := by
  obtain ⟨there, length, found, -, last, -⟩ := dayNumber?_iff.mp t.dayNumber?_parts
  have year := hasYear_iff.mp there
  obtain ⟨first, last', -⟩ := t.month_bounds
  obtain ⟨length', found', -, long⟩ :=
    exists_daysInMonth? t.year (Int.ofNat_le.mpr first) (Int.ofNat_le.mpr last')
  cases found.symm.trans found'
  have place := (yearOf_spec t.day).2
  rw [sum_monthLengths] at place
  have dayOfYear : t.dayOfYear ≤ 366 := by
    rw [DateTime.dayOfYear]
    split at place <;> omega
  have second := t.second_lt
  refine ⟨⟨tells_of_part h rfl rfl (by omega), tells_of_part h rfl rfl (by omega),
    tells_of_part h rfl rfl (by omega), tells_of_part h rfl rfl (by omega)⟩,
    tells_of_part h rfl rfl ?_, tells_of_part h rfl rfl ?_, tells_of_part h rfl rfl ?_⟩
  · unfold DateTime.hour
    omega
  · unfold DateTime.minute
    omega
  · unfold DateTime.secondOfMinute
    omega

/-- The members of a date are these numbers, and its day of the year counts the days of the earlier
months. -/
structure Told (o : Operand) (host : Host) (scope : Scope) (y m d h mi s : Int) : Prop where
  year : o.Tells host scope "Year" y
  month : o.Tells host scope "Month" m
  day : o.Tells host scope "Day" d
  hour : o.Tells host scope "Hour" h
  minute : o.Tells host scope "Minute" mi
  second : o.Tells host scope "Second" s
  dayOfYear : ∃ earlier : List Nat, earlier.length = m - 1 ∧
    (∀ i length, earlier[i]? = some length →
      DateTimeMethod.daysInMonth? y (i + 1 : Nat) = some length) ∧
    o.Tells host scope "DayOfYear" (d + earlier.sum)

/-- A date that is made of numbers tells them. -/
theorem told_of_ofNumbers {y m d h mi s : Int} (ho : o.Denotes host scope .dateTime (.dateTime t))
    (made : DateTimeMethod.ofNumbers [y, m, d, h, mi, s] = some t) :
    o.Told host scope y m d h mi s := by
  obtain ⟨named, number, time, -⟩ := DateTimeMethod.ofNumbers_iff.mp made
  obtain ⟨⟨year, month, day, dayOfYear⟩, hour, minute, second⟩ := date_tells ho
  obtain ⟨year_eq, month_eq, day_eq, place⟩ := DateTime.parts_eq number
  have time_eq : (t.hour : Int) = h ∧ (t.minute : Int) = mi ∧ (t.secondOfMinute : Int) = s := by
    have := named.hour
    have := named.minute
    have := named.second
    unfold DateTime.hour DateTime.minute DateTime.secondOfMinute
    omega
  rw [year_eq] at year
  rw [month_eq] at month
  rw [day_eq] at day
  rw [time_eq.1] at hour
  rw [time_eq.2.1] at minute
  rw [time_eq.2.2] at second
  rw [place, Int.add_comm] at dayOfYear
  refine ⟨year, month, day, hour, minute, second, (monthLengths y).take (m.toNat - 1), ?_,
    fun i length found => ?_, dayOfYear⟩
  · have months := named.month
    have twelve : (monthLengths y).length = 12 := rfl
    rw [List.length_take, twelve]
    omega
  · rw [DateTimeMethod.daysInMonth?_eq named.year, daysInMonth?_iff]
    refine ⟨by omega, ?_⟩
    rw [List.getElem?_take] at found
    split at found
    · simpa using found
    · cases found

/-! ## Methods -/

variable {oy om od oh omi os : Operand} {y m d h mi s n : IntKind.int32.Word}

theorem daysInMonth_gives (hy : oy.Denotes host scope .int32 (.integer .int32 y))
    (hm : om.Denotes host scope .int32 (.integer .int32 m)) :
    Gives (method .dateTime none "DaysInMonth" [oy, om]) host scope .int32
      (Outcome.ofOption (.invalidArgument "Month must be between 1 and 12")
        ((DateTimeMethod.daysInMonth? y.val m.val).map fun n => .int32 n)) :=
  static_gives (b := .dateTime .daysInMonth) (.cons hy hm.alone) rfl rfl

theorem isLeapYear_gives (hy : oy.Denotes host scope .int32 (.integer .int32 y)) :
    Gives (method .dateTime none "IsLeapYear" [oy]) host scope .boolean
      (if 1 ≤ y.val ∧ y.val ≤ 9999 then
        .ok (.boolean (DateTimeMethod.daysInMonth? y.val 2 = some 29))
      else .error (.invalidArgument "Year must be between 1 and 9999")) := by
  have called : Gives (method .dateTime none "IsLeapYear" [oy]) host scope .boolean
      (DateTimeMethod.isLeapYear.call .null [.integer .int32 y]) :=
    static_gives (b := .dateTime .isLeapYear) hy.alone rfl rfl
  have outcome : DateTimeMethod.isLeapYear.call .null [.integer .int32 y] =
      if y.val < 1 || y.val > 9999 then
        .error (.invalidArgument "Year must be between 1 and 9999")
      else .ok (.boolean (Calendar.isLeapYear y.val)) := rfl
  rw [outcome] at called
  split
  · rename_i within
    have inside : (y.val < 1 || y.val > 9999) = false := by
      simp only [Bool.or_eq_false_iff, decide_eq_false_iff_not]
      omega
    rw [inside] at called
    rw [DateTimeMethod.daysInMonth?_february within]
    cases leap : Calendar.isLeapYear y.val <;> simpa [leap] using called
  · rename_i beyond
    have outside : (y.val < 1 || y.val > 9999) = true := by
      simp only [Bool.or_eq_true, decide_eq_true_eq]
      omega
    rw [outside] at called
    exact called

theorem newDate_gives (hy : oy.Denotes host scope .int32 (.integer .int32 y))
    (hm : om.Denotes host scope .int32 (.integer .int32 m))
    (hd : od.Denotes host scope .int32 (.integer .int32 d))
    (hh : oh.Denotes host scope .int32 (.integer .int32 h))
    (hmi : omi.Denotes host scope .int32 (.integer .int32 mi))
    (hs : os.Denotes host scope .int32 (.integer .int32 s)) :
    Gives (construct .dateTime [oy, om, od, oh, omi, os]) host scope .dateTime
      (Outcome.ofOption (.invalidArgument "The arguments describe an unrepresentable DateTime")
        ((DateTimeMethod.ofNumbers [y.val, m.val, d.val, h.val, mi.val, s.val]).map
          .dateTime)) :=
  construct_gives (b := .dateTime .new)
    (.cons hy (.cons hm (.cons hd (.cons hh (.cons hmi hs.alone))))) rfl

theorem addMonths_gives (ha : a.Denotes host scope .dateTime (.dateTime t))
    (hk : k.Denotes host scope .int32 (.integer .int32 n)) :
    Gives (method .dateTime (some a) "AddMonths" [k]) host scope .dateTime
      (BinaryOp.checkedDate (t.addMonths? n.val)) :=
  method_gives (b := .dateTime .addMonths) ha rfl hk.alone rfl rfl

theorem addYears_gives (ha : a.Denotes host scope .dateTime (.dateTime t))
    (hk : k.Denotes host scope .int32 (.integer .int32 n)) :
    Gives (method .dateTime (some a) "AddYears" [k]) host scope .dateTime
      (Outcome.ofOption .overflow (IntKind.int32.ofInt? (n.val * 12)) >>= fun months =>
        BinaryOp.checkedDate (t.addMonths? months.val)) :=
  method_gives (b := .dateTime .addYears) ha rfl hk.alone rfl rfl

/-- So many years are twelve times as many months, if there are words for these. -/
theorem addYears_months (ha : a.Denotes host scope .dateTime (.dateTime t))
    (hk : k.Denotes host scope .int32 (.integer .int32 n)) :
    (∀ (l : Operand) (months : IntKind.int32.Word),
      l.Denotes host scope .int32 (.integer .int32 months) → months.val = 12 * n.val →
      ∃ outcome, Gives (method .dateTime (some a) "AddMonths" [l]) host scope .dateTime outcome ∧
        Gives (method .dateTime (some a) "AddYears" [k]) host scope .dateTime outcome) ∧
    (¬ IntKind.int32.Holds (12 * n.val) →
      Gives (method .dateTime (some a) "AddYears" [k]) host scope .dateTime
        (.error .overflow)) := by
  have years := addYears_gives ha hk
  rw [Int.mul_comm] at years
  constructor
  · intro l months hl twelve
    refine ⟨_, addMonths_gives ha hl, ?_⟩
    rw [← twelve, IntKind.ofInt?_of_holds months.holds, IntKind.wrap_word] at years
    exact years
  · intro beyond
    rw [IntKind.ofInt?_of_not_holds beyond] at years
    exact years

/-- The members that know the calendar agree: the constructor takes the days that the length of the
month allows, and the properties tell them again; a year of the range is a leap year if its February
has 29 days; months are added by their number, the day cut to the length of the month, and years are
added as months. What lies outside the range is reported. -/
theorem calendar_members (hy : oy.Denotes host scope .int32 (.integer .int32 y))
    (hm : om.Denotes host scope .int32 (.integer .int32 m))
    (hd : od.Denotes host scope .int32 (.integer .int32 d))
    (hh : oh.Denotes host scope .int32 (.integer .int32 h))
    (hmi : omi.Denotes host scope .int32 (.integer .int32 mi))
    (hs : os.Denotes host scope .int32 (.integer .int32 s))
    (ha : a.Denotes host scope .dateTime (.dateTime t))
    (hk : k.Denotes host scope .int32 (.integer .int32 n)) :
    Gives (method .dateTime none "DaysInMonth" [oy, om]) host scope .int32
      (Outcome.ofOption (.invalidArgument "Month must be between 1 and 12")
        ((DateTimeMethod.daysInMonth? y.val m.val).map fun n => .int32 n)) ∧
    (∃ new, (∀ pos, construct .dateTime [oy, om, od, oh, omi, os] pos = .ok new) ∧
      (DateTimeMethod.Named y.val m.val d.val h.val mi.val s.val →
        (∃ u, new.Denotes host scope .dateTime (.dateTime u)) ∧
          new.Told host scope y.val m.val d.val h.val mi.val s.val) ∧
      (¬ DateTimeMethod.Named y.val m.val d.val h.val mi.val s.val →
        new.expr.eval host scope =
          .error (.invalidArgument "The arguments describe an unrepresentable DateTime"))) ∧
    Gives (method .dateTime none "IsLeapYear" [oy]) host scope .boolean
      (if 1 ≤ y.val ∧ y.val ≤ 9999 then
        .ok (.boolean (DateTimeMethod.daysInMonth? y.val 2 = some 29))
      else .error (.invalidArgument "Year must be between 1 and 9999")) ∧
    (∃ outcome, t.Shifted n.val outcome ∧
      Gives (method .dateTime (some a) "AddMonths" [k]) host scope .dateTime outcome) ∧
    (∀ (o : Operand) (u : DateTime), o.Denotes host scope .dateTime (.dateTime u) →
      o.Tells host scope "Year" u.year ∧ o.Tells host scope "Month" u.month ∧
        o.Tells host scope "Day" u.dayOfMonth) ∧
    (∀ (l : Operand) (months : IntKind.int32.Word),
      l.Denotes host scope .int32 (.integer .int32 months) → months.val = 12 * n.val →
      ∃ outcome, Gives (method .dateTime (some a) "AddMonths" [l]) host scope .dateTime outcome ∧
        Gives (method .dateTime (some a) "AddYears" [k]) host scope .dateTime outcome) ∧
    (¬ IntKind.int32.Holds (12 * n.val) →
      Gives (method .dateTime (some a) "AddYears" [k]) host scope .dateTime
        (.error .overflow)) := by
  obtain ⟨new, made, ⟨-, type, value⟩⟩ := newDate_gives hy hm hd hh hmi hs
  refine ⟨daysInMonth_gives hy hm, ⟨new, made, fun named => ?_, fun unnamed => ?_⟩,
    isLeapYear_gives hy, ⟨_, t.addMonths?_shifted n.val, addMonths_gives ha hk⟩,
    fun o u ho => ?_, addYears_months ha hk⟩
  · obtain ⟨u, date⟩ := named.exists_date
    rw [date] at value
    exact ⟨⟨u, type, value⟩, told_of_ofNumbers ⟨type, value⟩ date⟩
  · have none : DateTimeMethod.ofNumbers [y.val, m.val, d.val, h.val, mi.val, s.val] = none := by
      refine Option.eq_none_iff_forall_ne_some.mpr fun u date => unnamed ?_
      exact (DateTimeMethod.ofNumbers_iff.mp date).1
    rw [none] at value
    exact value
  · obtain ⟨⟨year, month, day, -⟩, -⟩ := date_tells ho
    exact ⟨year, month, day⟩

/-- A number of 32 bits as an operand. -/
private def numeral (n : Int) : Operand := plain (.constant (.int32 n) .int32)

private theorem numeral_denotes (n : Int) :
    (numeral n).Denotes .silent [] .int32 (.integer .int32 (IntKind.int32.wrap n)) :=
  denotes_constant .silent [] (.int32 n) .int32

theorem calendar_members_leapDay :
    let last := plain (.constant (.dateTime .maxValue) .dateTime)
    let numbers := [numeral 2024, numeral 2, numeral 29, numeral 12, numeral 30, numeral 5]
    (∀ n : Int, (numeral n).Denotes .silent [] .int32 (.integer .int32 (IntKind.int32.wrap n))) ∧
      last.Denotes .silent [] .dateTime (.dateTime .maxValue) ∧
      (∃ new, construct .dateTime numbers 0 = .ok new ∧ new.Told .silent [] 2024 2 29 12 30 5) ∧
      Gives (method .dateTime none "IsLeapYear" [numeral 2024]) .silent [] .boolean
        (.ok (.boolean true)) ∧
      Gives (method .dateTime (some last) "AddMonths" [numeral 1]) .silent [] .dateTime
        (.error .overflow) := by
  intro last numbers
  have date := denotes_constant .silent [] (.dateTime .maxValue) .dateTime
  obtain ⟨-, ⟨new, made, told, -⟩, leap, ⟨outcome, shifted, months⟩, -⟩ :=
    calendar_members (numeral_denotes 2024) (numeral_denotes 2) (numeral_denotes 29)
      (numeral_denotes 12) (numeral_denotes 30) (numeral_denotes 5) date (numeral_denotes 1)
  have named : DateTimeMethod.Named 2024 2 29 12 30 5 :=
    ⟨by decide, by decide, ⟨by decide, 29, by decide, by decide⟩, by decide, by decide, by decide⟩
  have beyond : DateTime.maxValue.LeavesByMonths 1 := by
    unfold DateTime.LeavesByMonths
    decide
  cases shifted.unique (.outside (.inl beyond))
  exact ⟨numeral_denotes, date, ⟨new, made 0, (told named).2⟩, leap, months⟩

/-- The year before the first one has a February of 29 days, and is not asked about. -/
theorem leap_year_refused :
    Gives (method .dateTime none "IsLeapYear" [numeral 0]) .silent [] .boolean
        (.error (.invalidArgument "Year must be between 1 and 9999")) ∧
      Gives (method .dateTime none "DaysInMonth" [numeral 0, numeral 2]) .silent [] .int32
        (.ok (.int32 29)) :=
  ⟨isLeapYear_gives (numeral_denotes 0), daysInMonth_gives (numeral_denotes 0) (numeral_denotes 2)⟩

end Operand
end TypedExpr
