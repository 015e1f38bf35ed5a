import TypedExpr.Json.OfValue
import TypedExpr.Proofs.Calendar
import TypedExpr.Proofs.LeafTexts
import TypedExpr.Proofs.Lexing
import TypedExpr.Proofs.MemberCalls
import TypedExpr.Proofs.Pieces

/-! # Texts of dates read again

What a format writes is read by the same format, item by item, as long as each item ends where the
next one begins. The fields that are read are those of the date, and they make the date again,
except that a leap second which does not end a minute is written as the second after it.
-/

namespace TypedExpr

namespace DateTime

variable {t : DateTime} {fs : Fields} {cs rest : List Char} {n : Nat}

/-! ## Items -/

/-- What may stand behind an item, so that the item ends before it. -/
def Ends : FormatItem → List Char → Prop
  | .literal _, _ => True
  | .blank, rest => ∀ c ∈ rest.head?, Text.isWhiteSpace c = false
  | .field _, rest => ∀ c ∈ rest.head?, Text.isDigit c = false
  | .fraction, rest | .nanoseconds, rest => ∀ c ∈ rest.head?, Text.isDigit c = false ∧ c ≠ '.'

/-- The digits of a field. -/
def Field.width : Field → Nat
  | .year => 4
  | _ => 2

/-- The number that a field shows. A leap second is the second number sixty. -/
def shows (t : DateTime) : Field → Int
  | .year => t.year
  | .month => t.month
  | .day => t.dayOfMonth
  | .hour => t.hour
  | .minute => t.minute
  | .second => (t.secondOfMinute + t.nano / 1000000000 : Nat)

/-- The fields with one of them replaced. -/
def Fields.put (fs : Fields) (n : Int) : Field → Fields
  | .year => { fs with year := n }
  | .month => { fs with month := n }
  | .day => { fs with day := n }
  | .hour => { fs with hour := n }
  | .minute => { fs with minute := n }
  | .second => { fs with second := n }

/-- The fields with what an item shows of a date. Where there is no fraction, nothing is shown. -/
def Fields.fill (t : DateTime) (fs : Fields) : FormatItem → Fields
  | .literal _ | .blank => fs
  | .field f => fs.put (t.shows f) f
  | .fraction => if t.nano % 1000000000 = 0 then fs else { fs with nano := t.nano % 1000000000 }
  | .nanoseconds => { fs with nano := t.nano % 1000000000 }

theorem digits?_digits {width : Nat} (digits : Token.IsDigits cs) (short : cs.length ≤ width)
    (ends : ∀ c ∈ rest.head?, Text.isDigit c = false) :
    digits? width (cs ++ rest) = some (Read.decimal cs, rest) := by
  have whole : ((cs ++ rest).takeWhile Text.isDigit).take width = cs := by
    rw [Token.takeWhile_exact digits.2 ends, List.take_of_length_le short]
  simp only [digits?, whole, List.isEmpty_eq_false_iff.mpr digits.1, List.drop_left,
    Read.natOfDigits_eq, Bool.false_eq_true, if_false]

theorem digit_visible {c : Char} (h : Text.isDigit c) : Text.isWhiteSpace c = false :=
  Json.isNumeral_visible (by rw [Json.isNumeral, h]; rfl)

/-- Digits are read by any field that has room for them. -/
theorem number?_digits (f : Field) (digits : Token.IsDigits cs) (short : cs.length ≤ f.width)
    (ends : ∀ c ∈ rest.head?, Text.isDigit c = false) :
    number? f (cs ++ rest) = some ((Read.decimal cs : Int), rest) := by
  obtain ⟨nonempty, all⟩ := digits
  cases cs with
  | nil => exact absurd rfl nonempty
  | cons c tail =>
      have digit := all c List.mem_cons_self
      have start : Text.trimStart (c :: tail ++ rest) = c :: (tail ++ rest) :=
        List.dropWhile_cons_of_neg (by simp [digit_visible digit])
      have read := digits?_digits ⟨nonempty, all⟩ short ends
      cases f with
      | year =>
          simp only [number?, start]
          -- a digit is no sign
          split
          · obtain ⟨rfl, -⟩ := List.cons_eq_cons.mp ‹c :: _ = '-' :: _›
            exact absurd digit (by decide)
          · obtain ⟨rfl, -⟩ := List.cons_eq_cons.mp ‹c :: _ = '+' :: _›
            exact absurd digit (by decide)
          · exact congrArg (Option.map _) read
          · exact absurd rfl ‹_›
      | _ =>
          simp only [number?, start]
          exact congrArg (Option.map _) read

/-- The numbers of a date of the years 0 to 9999 fit their fields. -/
theorem shows_fits (plain : 0 ≤ t.year ∧ t.year ≤ 9999) (f : Field) :
    ∃ n : Nat, t.shows f = n ∧ n < 10 ^ f.width ∧ fieldText t f = TimeSpan.padded f.width n ∧
      ∀ fs : Fields, fs.set? n f = some (fs.put n f) := by
  obtain ⟨-, length, found, first, last, -⟩ := Calendar.dayNumber?_iff.mp t.dayNumber?_parts
  have positive := (Calendar.daysInMonth?_iff.mp found).1
  have twelve := Calendar.month_le_twelve found
  obtain ⟨longest, found', -, bound⟩ := Calendar.exists_daysInMonth? t.year positive twelve
  cases found.symm.trans found'
  have second := t.second_lt
  have nano := t.nano_lt
  cases f with
  | year =>
      refine ⟨t.year.natAbs, ?_, ?_, if_pos plain, fun fs => rfl⟩
      · simp only [shows]
        omega
      · simp only [Field.width]
        omega
  | month =>
      exact ⟨t.month, rfl, by simp only [Field.width]; omega, rfl, fun fs => if_pos (by omega)⟩
  | day =>
      exact ⟨t.dayOfMonth, rfl, by simp only [Field.width]; omega, rfl, fun fs => if_pos (by omega)⟩
  | hour =>
      have hour : t.hour < 24 := by unfold DateTime.hour; omega
      exact ⟨t.hour, rfl, by simp only [Field.width]; omega, rfl, fun fs => if_pos (by omega)⟩
  | minute =>
      have minute : t.minute < 60 := by unfold DateTime.minute; omega
      exact ⟨t.minute, rfl, by simp only [Field.width]; omega, rfl, fun fs => if_pos (by omega)⟩
  | second =>
      have second : t.secondOfMinute < 60 := by unfold secondOfMinute; omega
      exact ⟨_, rfl, by simp only [Field.width]; omega, rfl, fun fs => if_pos (by omega)⟩

/-- Digits behind a point are read as a fraction, to the nanosecond. -/
theorem readItem?_digits {item : FormatItem} (fraction : item = .fraction ∨ item = .nanoseconds)
    (digits : Token.IsDigits cs) (short : cs.length ≤ 9)
    (ends : ∀ c ∈ rest.head?, Text.isDigit c = false) :
    readItem? fs ('.' :: cs ++ rest) item =
      some ({ fs with nano := Read.decimal cs * 10 ^ (9 - cs.length) }, rest) := by
  have whole : ((cs ++ rest).takeWhile Text.isDigit).take 9 = cs := by
    rw [Token.takeWhile_exact digits.2 ends, List.take_of_length_le short]
  have left : (cs ++ rest).dropWhile Text.isDigit = rest := Read.dropWhile_exact digits.2 ends
  rcases fraction with rfl | rfl <;>
    simp [readItem?, whole, left, digits.1, Read.natOfDigits_eq, Read.decimal_append_zeros]

/-- A fraction of three, six or nine digits, as many as are needed. -/
theorem fractionText_cases {nano : Nat} (some : nano ≠ 0) (short : nano < 10 ^ 9) :
    ∃ digits, fractionText nano = '.' :: digits ∧ Token.IsDigits digits ∧ digits.length ≤ 9 ∧
      Read.decimal digits * 10 ^ (9 - digits.length) = nano := by
  have padded {width n : Nat} (positive : 0 < width) (within : width ≤ 9)
      (total : n * 10 ^ (9 - width) = nano) (fits : n < 10 ^ width) :
      Token.IsDigits (TimeSpan.padded width n) ∧ (TimeSpan.padded width n).length ≤ 9 ∧
        Read.decimal (TimeSpan.padded width n) * 10 ^ (9 - (TimeSpan.padded width n).length) =
          nano := by
    have length := TimeSpan.length_padded positive fits
    rw [length, TimeSpan.decimal_padded]
    exact ⟨TimeSpan.isDigits_padded width n, within, total⟩
  unfold fractionText
  rw [if_neg some]
  split
  · exact ⟨_, rfl, padded (by decide) (by decide) (by omega) (by omega)⟩
  · split
    · exact ⟨_, rfl, padded (by decide) (by decide) (by omega) (by omega)⟩
    · exact ⟨_, rfl, padded (by decide) (by decide) (by omega) (by omega)⟩

/-- An item reads what it has written, and what it shows of the date. -/
theorem readItem?_written (fs : Fields) (plain : 0 ≤ t.year ∧ t.year ≤ 9999) (item : FormatItem)
    (ends : Ends item rest) :
    readItem? fs (t.itemText item ++ rest) item = some (fs.fill t item, rest) := by
  have below : t.nano % 1000000000 < 10 ^ 9 := Nat.mod_lt _ (by decide)
  cases item with
  | literal c => simp [readItem?, itemText, Text.dropHead?, Fields.fill]
  | blank =>
      have rest_kept : Text.trimStart rest = rest := by
        cases rest with
        | nil => rfl
        | cons c rest => exact List.dropWhile_cons_of_neg (by simp [ends c rfl])
      have blank : Text.isWhiteSpace ' ' := by decide
      simp only [readItem?, itemText, Fields.fill]
      rw [Text.trimStart, List.singleton_append, List.dropWhile_cons_of_pos blank]
      exact congrArg (fun cs => some (fs, cs)) rest_kept
  | field f =>
      obtain ⟨n, number, fits, text, set⟩ := shows_fits plain f
      have width : 0 < f.width := by cases f <;> decide
      have length := TimeSpan.length_padded width fits
      have read := number?_digits f (TimeSpan.isDigits_padded f.width n) (Nat.le_of_eq length) ends
      simp only [readItem?, itemText, text, read, TimeSpan.decimal_padded, Fields.fill, number]
      simp [set]
  | fraction =>
      by_cases none : t.nano % 1000000000 = 0
      · have unread : ∀ c ∈ rest.head?, c ≠ '.' := fun c hc => (ends c hc).2
        simp only [itemText, fractionText, none, if_true, List.nil_append, Fields.fill, readItem?]
        split
        · exact absurd rfl (unread '.' rfl)
        · rfl
      · obtain ⟨digits, text, isDigits, short, nano⟩ := fractionText_cases none below
        rw [itemText, text, readItem?_digits (.inl rfl) isDigits short fun c hc => (ends c hc).1,
          nano, Fields.fill, if_neg none]
  | nanoseconds =>
      have length : (TimeSpan.padded 9 (t.nano % 1000000000)).length = 9 :=
        TimeSpan.length_padded (by decide) below
      rw [itemText, readItem?_digits (.inr rfl) (TimeSpan.isDigits_padded 9 _)
        (Nat.le_of_eq length) fun c hc => (ends c hc).1, length, TimeSpan.decimal_padded,
        Nat.sub_self, Nat.pow_zero, Nat.mul_one, Fields.fill]

/-! ## Formats -/

/-- Each item of the format ends before what the date shows behind it. -/
def Apart (t : DateTime) : Format → List Char → Prop
  | [], _ => True
  | item :: items, rest => Ends item (items.flatMap t.itemText ++ rest) ∧ Apart t items rest

/-- A format goes on behind what its first items have written with what these show of the date. -/
theorem readItems?_written (fs : Fields) (plain : 0 ≤ t.year ∧ t.year ≤ 9999) {f : Format}
    (g : Format) (apart : t.Apart f rest) :
    readItems? fs (f.flatMap t.itemText ++ rest) (f ++ g) =
      readItems? (f.foldl (Fields.fill t) fs) rest g := by
  induction f generalizing fs with
  | nil => rfl
  | cons item f ih =>
      have first := readItem?_written fs plain item apart.1
      rw [List.flatMap_cons, List.append_assoc, List.cons_append, readItems?, first]
      exact ih _ apart.2

/-! ## Dates -/

/-- The date that the fields of a date name. A leap second that does not end a minute is shown as
the second after it. -/
def shown (t : DateTime) : DateTime :=
  if h : t.nano < 1000000000 ∨ t.second % 60 = 59 then t
  else { t with
    second := t.second + 1
    nano := t.nano - 1000000000
    second_lt := by have := t.second_lt; omega
    nano_lt := by have := t.nano_lt; omega }

theorem shown_day (t : DateTime) : t.shown.day = t.day := by
  unfold shown
  split <;> rfl

theorem shown_second (t : DateTime) : t.shown.second =
    if t.nano < 1000000000 ∨ t.second % 60 = 59 then t.second else t.second + 1 := by
  unfold shown
  split <;> rfl

theorem shown_nano (t : DateTime) : t.shown.nano =
    if t.nano < 1000000000 ∨ t.second % 60 = 59 then t.nano else t.nano - 1000000000 := by
  unfold shown
  split <;> rfl

theorem shown_eq_iff : t.shown = t ↔ t.nano < 1000000000 ∨ t.second % 60 = 59 := by
  unfold shown
  split
  · exact iff_of_true rfl ‹_›
  · refine iff_of_false (fun same => ?_) ‹_›
    have second := congrArg DateTime.second same
    simp at second

theorem make?_self (t : DateTime) : make? t.day t.second t.nano = some t :=
  dif_pos ⟨t.day_ge, t.day_le, t.second_lt, t.nano_lt⟩

/-- Behind the fields of a date stands a second of its minute, or the number sixty. -/
theorem ofFields?_minute (t : DateTime) {second nano : Nat} (fits : second ≤ 60) :
    ofFields? ⟨t.year, t.month, t.dayOfMonth, t.hour, t.minute, second, nano⟩ =
      if second = 60 then make? t.day (t.hour * 3600 + t.minute * 60 + 59) (1000000000 + nano)
      else make? t.day (t.hour * 3600 + t.minute * 60 + second) nano := by
  have hour : t.hour < 24 := by have := t.second_lt; unfold DateTime.hour; omega
  have minute : t.minute < 60 := by unfold DateTime.minute; omega
  have made (second : Nat) (fits : second < 60) :
      ofParts? t.year t.month t.dayOfMonth t.hour t.minute second =
        some ⟨t.day, t.hour * 3600 + t.minute * 60 + second, 0, t.day_ge, t.day_le, by omega,
          by decide⟩ := by
    rw [ofParts?_iff]
    exact ⟨t.dayNumber?_parts, by omega, by omega, by omega, by dsimp only; omega, rfl⟩
  by_cases leap : second = 60
  · subst leap
    have last := made 59 (by decide)
    simp only [ofFields?, Nat.cast_ofNat, if_true] at last ⊢
    rw [last]
    rfl
  · have other : (second : Int) ≠ 60 := by omega
    have here := made second (by omega)
    simp only [ofFields?, other, leap, if_false]
    rw [here]
    rfl

/-- The fields of a date make the date that they show. -/
theorem ofFields?_shown (t : DateTime) :
    ofFields? ⟨t.year, t.month, t.dayOfMonth, t.hour, t.minute, t.shows .second,
      t.nano % 1000000000⟩ = some t.shown := by
  have time : t.second = t.hour * 3600 + t.minute * 60 + t.second % 60 := by
    unfold DateTime.hour DateTime.minute
    omega
  have nano := t.nano_lt
  simp only [shows]
  rw [t.ofFields?_minute (by unfold secondOfMinute; omega), ← t.shown.make?_self, shown_day,
    shown_second, shown_nano, secondOfMinute]
  split_ifs <;> exact congrArg₂ (make? t.day) (by omega) (by omega)

theorem fraction_ends (nano : Nat) : ∀ c ∈ (fractionText nano).head?, Text.isDigit c = false := by
  unfold fractionText
  split_ifs <;> simp [Text.isDigit]

theorem fraction_visible (nano : Nat) : ∀ c ∈ fractionText nano, Text.isWhiteSpace c = false := by
  have pointed (width n : Nat) :
      ∀ c ∈ '.' :: TimeSpan.padded width n, Text.isWhiteSpace c = false := by
    intro c hc
    rcases List.mem_cons.mp hc with rfl | hc
    · decide
    · exact digit_visible ((TimeSpan.isDigits_padded width n).2 c hc)
  unfold fractionText
  split_ifs
  · exact nofun
  all_goals exact pointed _ _

/-- A number begins with no blank. -/
theorem padded_visible (width n : Nat) (rest : List Char) :
    ∀ c ∈ (TimeSpan.padded width n ++ rest).head?, Text.isWhiteSpace c = false := by
  obtain ⟨nonempty, digits⟩ := TimeSpan.isDigits_padded width n
  intro c hc
  rw [List.head?_append_of_ne_nil _ nonempty] at hc
  exact digit_visible (digits c (List.mem_of_head? hc))

/-- A date that is written with a `T` is read as what is shown of it. -/
theorem read?_iso (plain : 0 ≤ t.year ∧ t.year ≤ 9999) :
    read? Format.iso (Format.iso.flatMap t.itemText) = some t.shown := by
  have apart : t.Apart Format.iso [] := by
    simp only [Apart, Format.iso, Format.isoDate, Format.time, Ends, List.cons_append,
      List.nil_append, List.flatMap_cons, List.flatMap_nil, List.append_nil, itemText,
      List.head?_cons, Option.mem_some_iff, forall_eq']
    exact ⟨rfl, trivial, rfl, trivial, rfl, trivial, rfl, trivial, rfl, trivial, fraction_ends _,
      nofun, trivial⟩
  have filled : Format.iso.foldl (Fields.fill t) ⟨0, 1, 1, 0, 0, 0, 0⟩ = ⟨t.year, t.month,
      t.dayOfMonth, t.hour, t.minute, t.shows .second, t.nano % 1000000000⟩ := by
    simp only [Format.iso, Format.isoDate, Format.time, List.cons_append, List.nil_append,
      List.foldl_cons, List.foldl_nil, Fields.fill, Fields.put, shows]
    split
    · rename_i none
      rw [none]
    · rfl
  have fields := readItems?_written ⟨0, 1, 1, 0, 0, 0, 0⟩ plain [] apart
  rw [List.append_nil, List.append_nil, filled] at fields
  rw [read?, fields, ← t.ofFields?_shown]
  rfl

/-- Date and time with slashes. -/
def Format.slashes : Format := slashDate ++ .blank :: time

/-- The fields of a date with slashes, of which no fraction is read. -/
theorem readItems?_slashes (plain : 0 ≤ t.year ∧ t.year ≤ 9999)
    (ends : ∀ c ∈ rest.head?, Text.isDigit c = false) :
    readItems? ⟨0, 1, 1, 0, 0, 0, 0⟩ (Format.slashes.flatMap t.itemText ++ rest) Format.slashes =
      readItems? ⟨t.year, t.month, t.dayOfMonth, t.hour, t.minute, t.shows .second, 0⟩ rest [] := by
  have apart : t.Apart Format.slashes rest := by
    simp only [Apart, Format.slashes, Format.slashDate, Format.time, Ends, List.cons_append,
      List.nil_append, List.flatMap_cons, List.flatMap_nil, itemText, List.append_assoc,
      List.head?_cons, Option.mem_some_iff, forall_eq']
    exact ⟨rfl, trivial, rfl, trivial, rfl, padded_visible 2 t.hour _, rfl, trivial, rfl, trivial,
      ends, trivial⟩
  have fields := readItems?_written ⟨0, 1, 1, 0, 0, 0, 0⟩ plain [] apart
  rw [List.append_nil] at fields
  exact fields

/-- A format of dates without a time leaves the time behind. -/
theorem read?_slashDate (plain : 0 ≤ t.year ∧ t.year ≤ 9999) :
    read? Format.slashDate (Format.slashDate.flatMap t.itemText ++ ' ' :: rest) = none := by
  have apart : t.Apart Format.slashDate (' ' :: rest) := by
    simp only [Apart, Format.slashDate, Ends, List.cons_append, List.nil_append,
      List.flatMap_cons, List.flatMap_nil, itemText, List.append_assoc, List.head?_cons,
      Option.mem_some_iff, forall_eq']
    exact ⟨rfl, trivial, rfl, trivial, rfl, trivial⟩
  have fields := readItems?_written ⟨0, 1, 1, 0, 0, 0, 0⟩ plain [] apart
  rw [List.append_nil] at fields
  rw [read?, fields]
  rfl

/-- A month before a slash is no year before a hyphen. -/
theorem read?_hyphen (month : Nat) (short : month < 10 ^ 2) (f : Format) :
    read? (.field .year :: .literal '-' :: f) (TimeSpan.padded 2 month ++ '/' :: rest) = none := by
  have length : (TimeSpan.padded 2 month).length = 2 := TimeSpan.length_padded (by decide) short
  have ends : ∀ c ∈ ('/' :: rest).head?, Text.isDigit c = false := by
    rintro c ⟨⟩
    rfl
  have year := number?_digits .year (TimeSpan.isDigits_padded 2 month) (by rw [length]; decide) ends
  simp only [read?, readItems?, readItem?, year]
  rfl

/-- A date that is written with slashes is read with slashes if it has no fraction, and not at all
if it has one. -/
theorem ofText?_display (plain : 0 ≤ t.year ∧ t.year ≤ 9999) :
    ofText? (Format.display.flatMap t.itemText) =
      if t.nano % 1000000000 = 0 then some t.shown else none := by
  have month : t.month < 10 ^ 2 := by
    obtain ⟨n, number, fits, -⟩ := shows_fits plain .month
    cases number
    exact fits
  have timed : Format.display.flatMap t.itemText =
      Format.slashes.flatMap t.itemText ++ fractionText (t.nano % 1000000000) := by
    simp [Format.display, Format.slashes, itemText]
  have dated : Format.display.flatMap t.itemText = Format.slashDate.flatMap t.itemText ++
      ' ' :: (Format.time.flatMap t.itemText ++ fractionText (t.nano % 1000000000)) := by
    simp [Format.display, itemText]
  have opened : ∃ later, Format.display.flatMap t.itemText =
      TimeSpan.padded 2 t.month ++ '/' :: later :=
    ⟨_, by simp [Format.display, Format.slashDate, itemText, fieldText]; rfl⟩
  have hyphens (f : Format) : read? (.field .year :: .literal '-' :: f)
      (Format.display.flatMap t.itemText) = none := by
    obtain ⟨later, text⟩ := opened
    rw [text]
    exact read?_hyphen t.month month f
  have timeless : read? Format.slashDate (Format.display.flatMap t.itemText) = none := by
    rw [dated]
    exact read?_slashDate plain
  have slashes : read? Format.slashes (Format.display.flatMap t.itemText) =
      if t.nano % 1000000000 = 0 then some t.shown else none := by
    rw [timed, read?, readItems?_slashes plain (fraction_ends (t.nano % 1000000000))]
    split
    · rename_i none
      rw [none, ← t.ofFields?_shown, none]
      rfl
    · rename_i some
      obtain ⟨digits, text, -⟩ := fractionText_cases some (Nat.mod_lt _ (by decide))
      rw [text]
      rfl
  have iso : read? Format.iso (Format.display.flatMap t.itemText) = none := hyphens _
  have isoTime : read? (Format.isoDate ++ .blank :: Format.time ++ [.fraction])
      (Format.display.flatMap t.itemText) = none := hyphens _
  have isoDate : read? Format.isoDate (Format.display.flatMap t.itemText) = none := hyphens _
  have tried : Format.readable = [Format.iso,
    Format.isoDate ++ .blank :: Format.time ++ [.fraction], Format.slashes, Format.isoDate,
    Format.slashDate] := rfl
  simp only [ofText?, tried, List.findSome?_cons, List.findSome?_nil, iso, isoTime, isoDate,
    slashes, timeless]
  split <;> (rename_i answer; exact answer.symm)

theorem ofText?_iso (plain : 0 ≤ t.year ∧ t.year ≤ 9999) :
    ofText? (Format.iso.flatMap t.itemText) = some t.shown := by
  simp only [ofText?, Format.readable, List.findSome?_cons, read?_iso plain]

/-- A text that begins with a number and ends with a second has no blanks around it. -/
theorem trimChars_written (plain : 0 ≤ t.year ∧ t.year ≤ 9999) {f : Format} {first : Field}
    (between : Format) (h : f = .field first :: (between ++ [.field .second, .fraction])) :
    Text.trimChars (f.flatMap t.itemText) = f.flatMap t.itemText := by
  obtain ⟨n, -, -, text, -⟩ := shows_fits plain first
  have opened : f.flatMap t.itemText = TimeSpan.padded first.width n ++
      List.flatMap t.itemText (between ++ [.field .second, .fraction]) := by
    rw [h, List.flatMap_cons, itemText, text]
  have closed : ∃ front, f.flatMap t.itemText = front ++
      (fieldText t .second ++ fractionText (t.nano % 1000000000)) :=
    ⟨fieldText t first ++ between.flatMap t.itemText, by simp [h, itemText]⟩
  refine Text.trimChars_of_ends ?_ ?_
  · rw [opened]
    exact padded_visible _ _ _
  · obtain ⟨front, text⟩ := closed
    obtain ⟨nonempty, digits⟩ := TimeSpan.isDigits_padded 2 (t.secondOfMinute + t.nano / 1000000000)
    intro c hc
    rw [text, fieldText,
      List.getLast?_append_of_ne_nil _ (List.append_ne_nil_of_left_ne_nil nonempty _)] at hc
    rcases List.mem_append.mp (List.mem_of_getLast? hc) with hc | hc
    · exact digit_visible (digits c hc)
    · exact fraction_visible _ c hc

end DateTime

/-! ## Texts read by the member that reads dates -/

namespace Value

variable {t : DateTime}

theorem read_display (h : t.inRange) : read t.toText .dateTime =
    if t.nano % 1000000000 = 0 then .ok (.dateTime t.shown)
    else .error (.invalidFormat t.toText) := by
  have plain : 0 ≤ t.year ∧ t.year ≤ 9999 := by
    have within := DateTime.year_within h
    omega
  have written : t.toText.toList = DateTime.Format.display.flatMap t.itemText :=
    String.toList_ofList
  have trimmed := DateTime.trimChars_written plain (f := .display)
    [.literal '/', .field .day, .literal '/', .field .year, .blank, .field .hour, .literal ':',
      .field .minute, .literal ':'] rfl
  simp only [read, ofText?, written, trimmed, DateTime.ofText?_display plain]
  split <;> rfl

theorem read_iso (h : t.inRange) :
    read (t.format .iso) .dateTime = .ok (.dateTime t.shown) := by
  have plain : 0 ≤ t.year ∧ t.year ≤ 9999 := by
    have within := DateTime.year_within h
    omega
  have written : (t.format .iso).toList = DateTime.Format.iso.flatMap t.itemText :=
    String.toList_ofList
  have trimmed := DateTime.trimChars_written plain (f := .iso)
    [.literal '-', .field .month, .literal '-', .field .day, .literal 'T', .field .hour,
      .literal ':', .field .minute, .literal ':'] rfl
  simp only [read, ofText?, written, trimmed, DateTime.ofText?_iso plain]
  rfl

end Value

namespace Operand

variable {o : Operand} {host : Host} {scope : Scope}

/-- A date is written by the method that all objects have. -/
theorem date_toText {t : DateTime} (h : o.Denotes host scope .dateTime (.dateTime t)) :
    Gives (method .dateTime (some o) "ToString" []) host scope .string (.ok (.string t.toText)) :=
  method_gives (b := .object .toText) h rfl .nil rfl rfl

/-- A text is read as a date by the static method of that type. -/
theorem date_read {text : String} (h : o.Denotes host scope .string (.string text)) :
    Gives (method .dateTime none "Parse" [o]) host scope .dateTime (Value.read text .dateTime) :=
  static_gives (b := .parse) h.alone rfl rfl

/-- What a document says of a date is read as that date, up to a leap second inside a minute. What
`ToString` says is so only if there is no fraction of a second: it is written, but not read. -/
theorem date_text_read {t : DateTime} (h : o.Denotes host scope .dateTime (.dateTime t))
    (within : t.inRange) :
    (∃ text, (∀ pos, method .dateTime (some o) "ToString" [] pos = .ok text) ∧
      text.Denotes host scope .string (.string t.toText) ∧
      Gives (method .dateTime none "Parse" [text]) host scope .dateTime
        (if t.nano % 1000000000 = 0 then .ok (.dateTime t.shown)
          else .error (.invalidFormat t.toText))) ∧
    (∃ written, Json.ofValue (.dateTime t) = .string written ∧
      ∀ text : Operand, text.Denotes host scope .string (.string written) →
        Gives (method .dateTime none "Parse" [text]) host scope .dateTime
          (.ok (.dateTime t.shown))) ∧
    (t.shown = t ↔ t.nano < 1000000000 ∨ t.second % 60 = 59) := by
  refine ⟨?_, ⟨_, rfl, fun text shows => ?_⟩, DateTime.shown_eq_iff⟩
  · obtain ⟨text, written, shows⟩ := date_toText h
    refine ⟨text, written, shows.denotes, ?_⟩
    rw [← Value.read_display within]
    exact date_read shows.denotes
  · rw [← Value.read_iso within]
    exact date_read shows

/-- The last minute of a leap day. -/
private def leapDay : DateTime := { DateTime.minValue with
  day := 738944
  second := 86340
  day_ge := by decide
  day_le := by decide
  second_lt := by decide }

theorem date_text_read_leapDay :
    let o := plain (.constant (.dateTime leapDay) .dateTime)
    o.Denotes .silent [] .dateTime (.dateTime leapDay) ∧ leapDay.inRange ∧
      leapDay.toText = "02/29/2024 23:59:00" ∧
      ∃ text, method .dateTime (some o) "ToString" [] 0 = .ok text ∧
        Gives (method .dateTime none "Parse" [text]) .silent [] .dateTime
          (.ok (.dateTime leapDay)) := by
  intro o
  have date := denotes_constant .silent [] (.dateTime leapDay) .dateTime
  have within : leapDay.inRange := by decide
  obtain ⟨⟨text, written, -, read⟩, -, same⟩ := date_text_read date within
  rw [same.mpr (by decide)] at read
  exact ⟨date, within, by decide, text, written 0, read⟩

/-- The last date is a whole number of ticks, and is written with a fraction, which is not read. -/
theorem date_text_unread :
    let o := plain (.constant (.dateTime .maxValue) .dateTime)
    DateTime.maxValue.inRange ∧ DateTime.maxValue.nano % 100 = 0 ∧
      ∃ text, method .dateTime (some o) "ToString" [] 0 = .ok text ∧
        Gives (method .dateTime none "Parse" [text]) .silent [] .dateTime
          (.error (.invalidFormat "12/31/9999 23:59:59.999999900")) := by
  intro o
  obtain ⟨text, written, shows⟩ :=
    date_toText (denotes_constant .silent [] (.dateTime .maxValue) .dateTime)
  refine ⟨by decide, by decide, text, written 0, ?_⟩
  have read := date_read shows.denotes
  rw [Value.read_display DateTime.inRange_maxValue] at read
  exact read

end Operand
end TypedExpr
