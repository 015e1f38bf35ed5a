import TypedExpr.Proofs.DateRange

/-! # Days and dates

A day has one year, one month and one day of the month, and these name that day and no other one. So
the parts of a date are those that it is made of, and a date is made of its parts again.
-/

namespace TypedExpr

namespace Calendar

variable {lengths : List Nat} {place i length : Nat} {year month day n : Int}

/-! ## Years -/

/-- The year at a place of a cycle of four hundred years, of its centuries, and of their spans of
four years. -/
def yearAt (cycle : Int) (century four year : Nat) : Int :=
  400 * cycle + (100 * century + 4 * four + year + 1 : Nat)

theorem daysBefore_yearAt (cycle : Int) {century four year : Nat} (hc : century ≤ 3)
    (hf : four ≤ 24) (hy : year ≤ 3) : daysBefore (yearAt cycle century four year) =
      146097 * cycle + 36524 * century + 1461 * four + 365 * year := by
  have whole : yearAt cycle century four year - 1 =
      400 * cycle + 100 * century + 4 * four + year := by
    unfold yearAt
    omega
  have fours : (yearAt cycle century four year - 1) / 4 = 100 * cycle + 25 * century + four := by
    omega
  have hundreds : (yearAt cycle century four year - 1) / 100 = 4 * cycle + century := by omega
  have cycles : (yearAt cycle century four year - 1) / 400 = cycle := by omega
  simp only [daysBefore, fours, hundreds, cycles]
  omega

/-- The last of four years is a leap year, except at the end of a century that does not end a
cycle. -/
theorem isLeapYear_yearAt (cycle : Int) {century four year : Nat} (hc : century ≤ 3)
    (hf : four ≤ 24) (hy : year ≤ 3) : isLeapYear (yearAt cycle century four year) ↔
      year = 3 ∧ (four = 24 → century = 3) := by
  simp only [isLeapYear, yearAt, Bool.and_eq_true, Bool.or_eq_true, beq_iff_eq, bne_iff_ne]
  omega

/-- The year of a day begins as many days before it as its place in the year says. -/
theorem yearOf_spec (day : Int) :
    daysBefore (yearOf day).1 + (yearOf day).2 = day ∧
      (yearOf day).2 < (monthLengths (yearOf day).1).sum := by
  obtain ⟨century, hcentury⟩ : ∃ n, n = min ((day % 146097).toNat / 36524) 3 := ⟨_, rfl⟩
  obtain ⟨four, hfour⟩ : ∃ n, n = ((day % 146097).toNat - 36524 * century) / 1461 := ⟨_, rfl⟩
  obtain ⟨year, hyear⟩ : ∃ n, n =
      min (((day % 146097).toNat - 36524 * century - 1461 * four) / 365) 3 := ⟨_, rfl⟩
  have parts : yearOf day = (yearAt (day / 146097) century four year,
      (day % 146097).toNat - 36524 * century - 1461 * four - 365 * year) := by
    rw [hyear, hfour, hcentury]
    rfl
  have hc : century ≤ 3 := by omega
  have hf : four ≤ 24 := by omega
  have hy : year ≤ 3 := by omega
  have leap := isLeapYear_yearAt (day / 146097) hc hf hy
  rw [parts, sum_monthLengths]
  refine ⟨?_, ?_⟩
  · rw [daysBefore_yearAt _ hc hf hy]
    omega
  · simp only [leap]
    split <;> omega

theorem daysBefore_next (year : Int) :
    daysBefore (year + 1) = daysBefore year + (monthLengths year).sum := by
  rw [daysBefore_succ, sum_monthLengths]
  split <;> rfl

/-- No other year has the day. -/
theorem yearOf_place (inside : place < (monthLengths year).sum) :
    yearOf (daysBefore year + place) = (year, place) := by
  obtain ⟨total, within⟩ := yearOf_spec (daysBefore year + place)
  have same : (yearOf (daysBefore year + place)).1 = year := by
    have next := daysBefore_next (yearOf (daysBefore year + place)).1
    have next' := daysBefore_next year
    rcases Int.lt_trichotomy (yearOf (daysBefore year + place)).1 year with lt | eq | gt
    · have := daysBefore_monotone (Int.add_one_le_of_lt lt)
      omega
    · exact eq
    · have := daysBefore_monotone (Int.add_one_le_of_lt gt)
      omega
  rw [same] at total
  exact Prod.ext same (by dsimp only; omega)

/-! ## Months -/

theorem exists_month (h : place < lengths.sum) : ∃ i length day, lengths[i]? = some length ∧
    day < length ∧ (lengths.take i).sum + day = place := by
  induction lengths generalizing place with
  | nil => simp at h
  | cons first rest ih =>
      by_cases here : place < first
      · exact ⟨0, first, place, rfl, here, by simp⟩
      · rw [List.sum_cons] at h
        obtain ⟨i, length, day, found, inside, total⟩ := ih (show place - first < rest.sum by omega)
        refine ⟨i + 1, length, day, found, inside, ?_⟩
        rw [List.take_succ_cons, List.sum_cons]
        omega

theorem monthOf_place {day : Nat} (found : lengths[i]? = some length) (inside : day < length) :
    monthOf ((lengths.take i).sum + day) lengths = (i + 1, day + 1) := by
  induction lengths generalizing i with
  | nil => cases found
  | cons first rest ih =>
      cases i with
      | zero =>
          obtain rfl : first = length := by simpa using found
          simp [monthOf, inside]
      | succ i =>
          have later : (rest.take i).sum + day = first + (rest.take i).sum + day - first := by omega
          have month := ih (i := i) found
          rw [List.take_succ_cons, List.sum_cons, monthOf, if_neg (by omega), ← later, month]

/-- The place of a day of a month in the year. -/
theorem place_lt {day : Nat} (found : lengths[i]? = some length) (inside : day < length) :
    (lengths.take i).sum + day < lengths.sum := by
  obtain ⟨bound, rfl⟩ := List.getElem?_eq_some_iff.mp found
  have months := List.sum_take_add_sum_drop lengths (i + 1)
  rw [List.sum_take_succ _ _ bound] at months
  omega

/-- The months are numbered from one to twelve. -/
theorem daysInMonth?_iff : daysInMonth? year month = some length ↔
    1 ≤ month ∧ (monthLengths year)[month.toNat - 1]? = some length := by
  unfold daysInMonth?
  split
  · exact ⟨nofun, fun h => absurd h.1 (by omega)⟩
  · exact ⟨fun h => ⟨by omega, h⟩, And.right⟩

theorem month_le_twelve (h : daysInMonth? year month = some length) : month ≤ 12 := by
  obtain ⟨first, found⟩ := daysInMonth?_iff.mp h
  obtain ⟨bound, -⟩ := List.getElem?_eq_some_iff.mp found
  have twelve : (monthLengths year).length = 12 := rfl
  omega

theorem exists_daysInMonth? (year : Int) (first : 1 ≤ month) (last : month ≤ 12) :
    ∃ length, daysInMonth? year month = some length ∧ 28 ≤ length ∧ length ≤ 31 := by
  have all : ∀ length ∈ monthLengths year, 28 ≤ length ∧ length ≤ 31 := by
    unfold monthLengths
    cases isLeapYear year <;> decide
  have bound : month.toNat - 1 < (monthLengths year).length := by
    have twelve : (monthLengths year).length = 12 := rfl
    omega
  exact ⟨_, daysInMonth?_iff.mpr ⟨first, List.getElem?_eq_getElem bound⟩,
    all _ (List.getElem_mem bound)⟩

/-- The days of the year before those of a month. -/
def earlierDays (year month : Int) : Nat := ((monthLengths year).take (month.toNat - 1)).sum

/-! ## Days -/

theorem hasYear_iff : hasYear year ↔ -262143 ≤ year ∧ year ≤ 262142 := by
  unfold hasYear
  rw [Bool.and_eq_true, decide_eq_true_iff, decide_eq_true_iff]
  rfl

/-- The numbers name a day if there is the year, the month in it, and the day in this. -/
theorem dayNumber?_iff : dayNumber? year month day = some n ↔ hasYear year ∧
    ∃ length, daysInMonth? year month = some length ∧ 1 ≤ day ∧ day ≤ length ∧
      n = daysBefore year + earlierDays year month + (day - 1) := by
  simp only [dayNumber?, Option.bind_eq_bind, Option.bind_eq_some_iff, earlierDays]
  constructor
  · rintro ⟨length, month, h⟩
    split at h
    · rename_i valid
      simp only [Bool.and_eq_true, decide_eq_true_eq] at valid
      rw [← List.sum_eq_foldl] at h
      cases h
      exact ⟨valid.1.1, length, month, valid.1.2, valid.2, rfl⟩
    · cases h
  · rintro ⟨there, length, month, first, last, rfl⟩
    refine ⟨length, month, ?_⟩
    rw [if_pos (by simp [there, first, last]), ← List.sum_eq_foldl]

/-- A day is named by its year, its month and its day of the month. -/
theorem exists_parts (n : Int) : ∃ i length day : Nat,
    daysInMonth? (yearOf n).1 (i + 1 : Nat) = some length ∧ day < length ∧
      (yearOf n).2 = earlierDays (yearOf n).1 (i + 1 : Nat) + day ∧
      monthOf (yearOf n).2 (monthLengths (yearOf n).1) = (i + 1, day + 1) := by
  obtain ⟨-, within⟩ := yearOf_spec n
  obtain ⟨i, length, day, found, inside, total⟩ := exists_month within
  refine ⟨i, length, day, daysInMonth?_iff.mpr ⟨by omega, ?_⟩, inside, ?_, ?_⟩
  · simpa using found
  · rw [← total]
    simp [earlierDays]
  · rw [← total]
    exact monthOf_place found inside

/-- No other numbers name the day. -/
theorem parts_of_dayNumber? (h : dayNumber? year month day = some n) :
    yearOf n = (year, earlierDays year month + (day - 1).toNat) ∧
      monthOf (yearOf n).2 (monthLengths (yearOf n).1) = (month.toNat, day.toNat) := by
  obtain ⟨-, length, found, first, last, rfl⟩ := dayNumber?_iff.mp h
  obtain ⟨positive, found⟩ := daysInMonth?_iff.mp found
  have inside : (day - 1).toNat < length := by omega
  have year_eq : yearOf (daysBefore year + earlierDays year month + (day - 1)) =
      (year, earlierDays year month + (day - 1).toNat) := by
    have place : daysBefore year + earlierDays year month + (day - 1) =
        daysBefore year + (earlierDays year month + (day - 1).toNat : Nat) := by omega
    rw [place]
    exact yearOf_place (place_lt found inside)
  rw [year_eq]
  refine ⟨rfl, (monthOf_place found inside).trans ?_⟩
  rw [Prod.mk.injEq]
  omega

end Calendar

namespace DateTime

open Calendar

variable {t : DateTime} {year month day hour minute second n : Int}

/-- All days of dates lie in years that have dates. -/
theorem hasYear_year (t : DateTime) : hasYear t.year := by
  obtain ⟨total, within⟩ := yearOf_spec t.day
  have next := daysBefore_next (yearOf t.day).1
  have low := t.day_ge
  have high := t.day_le
  have ends : daysBefore (-262143) = -95746130 ∧ daysBefore 262143 = 95745399 := by decide
  rw [hasYear_iff, year]
  constructor
  · by_contra before
    have := daysBefore_monotone (show (yearOf t.day).1 + 1 ≤ -262143 by omega)
    omega
  · by_contra after
    have := daysBefore_monotone (show 262143 ≤ (yearOf t.day).1 by omega)
    omega

/-- The day of a date is the one that its year, its month and its day of the month name. -/
theorem dayNumber?_parts (t : DateTime) : dayNumber? t.year t.month t.dayOfMonth = some t.day := by
  obtain ⟨total, -⟩ := yearOf_spec t.day
  obtain ⟨i, length, day, found, inside, place, parts⟩ := exists_parts t.day
  have month : t.month = i + 1 := congrArg Prod.fst parts
  have dayOfMonth : t.dayOfMonth = day + 1 := congrArg Prod.snd parts
  rw [month, dayOfMonth, dayNumber?_iff]
  refine ⟨t.hasYear_year, length, found, by omega, by omega, ?_⟩
  rw [DateTime.year]
  omega

theorem parts_eq (h : dayNumber? year month day = some t.day) : t.year = year ∧
    (t.month : Int) = month ∧ (t.dayOfMonth : Int) = day ∧
      (t.dayOfYear : Int) = earlierDays year month + day := by
  obtain ⟨year_eq, month_eq⟩ := parts_of_dayNumber? h
  obtain ⟨-, length, found, first, -, -⟩ := dayNumber?_iff.mp h
  have positive := (daysInMonth?_iff.mp found).1
  have monthNumber : t.month = month.toNat := congrArg Prod.fst month_eq
  have dayNumber : t.dayOfMonth = day.toNat := congrArg Prod.snd month_eq
  have place : (yearOf t.day).2 = earlierDays year month + (day - 1).toNat :=
    congrArg Prod.snd year_eq
  refine ⟨congrArg Prod.fst year_eq, by omega, by omega, ?_⟩
  rw [dayOfYear, place]
  omega

/-- The range of dates is that of the days of the years 1 to 9999. -/
theorem day_within_iff (t : DateTime) :
    0 ≤ t.day ∧ t.day ≤ 3652058 ↔ 1 ≤ t.year ∧ t.year ≤ 9999 := by
  obtain ⟨total, within⟩ := yearOf_spec t.day
  have next := daysBefore_next t.year
  have ends : daysBefore 1 = 0 ∧ daysBefore 10000 = 3652059 := by decide
  simp only [year] at next ⊢
  constructor
  · intro h
    constructor
    · by_contra before
      have := daysBefore_monotone (show (yearOf t.day).1 + 1 ≤ 1 by omega)
      omega
    · by_contra after
      have := daysBefore_monotone (show 10000 ≤ (yearOf t.day).1 by omega)
      omega
  · intro h
    have first := daysBefore_monotone h.1
    have last := daysBefore_monotone (show (yearOf t.day).1 + 1 ≤ 10000 by omega)
    omega

theorem year_within (h : t.inRange) : 1 ≤ t.year ∧ t.year ≤ 9999 := by
  rw [inRange_iff] at h
  exact t.day_within_iff.mp (by omega)

/-- There is a date on each day that has a number, at any time of the day. -/
theorem exists_make? {second nano : Nat} (h : dayNumber? year month day = some n)
    (hs : second < 86400) (hn : nano < 2000000000) : ∃ t, make? n second nano = some t := by
  obtain ⟨low, high⟩ := dayNumber?_within h
  have there := hasYear_iff.mp (dayNumber?_iff.mp h).1
  have first := daysBefore_monotone there.1
  have last := daysBefore_monotone (Int.add_le_add_right there.2 1)
  have ends : daysBefore (-262143) = -95746130 ∧ daysBefore (262142 + 1) = 95745399 := by decide
  exact ⟨_, dif_pos ⟨by omega, by omega, hs, hn⟩⟩

/-- A date is made of the numbers that name its day and its time. -/
theorem ofParts?_iff : ofParts? year month day hour minute second = some t ↔
    dayNumber? year month day = some t.day ∧ (0 ≤ hour ∧ hour < 24) ∧
      (0 ≤ minute ∧ minute < 60) ∧ (0 ≤ second ∧ second < 60) ∧
      (t.second : Int) = hour * 3600 + minute * 60 + second ∧ t.nano = 0 := by
  simp only [ofParts?, Option.bind_eq_bind, Option.bind_eq_some_iff]
  constructor
  · rintro ⟨n, number, h⟩
    split at h
    · rename_i valid
      simp only [Bool.and_eq_true, decide_eq_true_eq] at valid
      obtain ⟨rfl, time, nano⟩ := make?_some h
      exact ⟨number, by omega, by omega, by omega, by omega, nano⟩
    · cases h
  · rintro ⟨number, hh, hm, hs, time, nano⟩
    refine ⟨t.day, number, ?_⟩
    rw [if_pos (by simp [hh, hm, hs]), make?, dif_pos ⟨t.day_ge, t.day_le, by omega, by decide⟩]
    congr 1
    obtain ⟨_, _, _, _, _, _, _⟩ := t
    simp only at time nano
    simp only [nano, DateTime.mk.injEq, true_and, and_true]
    omega

end DateTime
end TypedExpr
