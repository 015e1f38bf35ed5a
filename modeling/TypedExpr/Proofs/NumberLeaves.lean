import TypedExpr.Proofs.LeafTexts
import TypedExpr.Proofs.NumberLiterals

/-! # Leaves that are numbers

A leaf is a number where its text, without the blanks around it, is the name of a number or written
as a decimal: a sign, digits, a point with digits and an exponent. Separators may stand between the
first and the last digit before the point, and do not count.
-/

namespace TypedExpr

open Token

/-! ## Blanks around a text -/

namespace Text

variable {front back : List Char}

/-- A text is what is left of it with blanks around it. -/
theorem exists_trimChars (cs : List Char) : ∃ front back, cs = front ++ (trimChars cs ++ back) ∧
    (∀ c ∈ front, isWhiteSpace c) ∧ ∀ c ∈ back, isWhiteSpace c := by
  have opens (l : List Char) : ∃ blanks, l = blanks ++ trimStart l ∧ ∀ c ∈ blanks, isWhiteSpace c :=
    ⟨l.takeWhile isWhiteSpace, List.takeWhile_append_dropWhile.symm,
      fun c hc => List.mem_takeWhile_imp hc⟩
  obtain ⟨front, split, blank⟩ := opens cs
  obtain ⟨back, split', blank'⟩ := opens (trimStart cs).reverse
  refine ⟨front, back.reverse, ?_, blank, by simpa using blank'⟩
  have whole := congrArg List.reverse split'
  rw [List.reverse_reverse, List.reverse_append] at whole
  rw [trimChars, ← whole]
  exact split

theorem trimChars_padded (blank : ∀ c ∈ front, isWhiteSpace c) (blank' : ∀ c ∈ back, isWhiteSpace c)
    (cs : List Char) : trimChars (front ++ (cs ++ back)) = trimChars cs := by
  have drop {blanks : List Char} (blank : ∀ c ∈ blanks, isWhiteSpace c) (l : List Char) :
      trimStart (blanks ++ l) = trimStart l := List.dropWhile_append_of_pos blank
  have nothing : trimStart back = [] := List.dropWhile_eq_nil_iff.mpr blank'
  have within : trimStart (cs ++ back) =
      if (trimStart cs).isEmpty then trimStart back else trimStart cs ++ back :=
    List.dropWhile_append
  rw [trimChars, drop blank, within, trimChars]
  split
  · rename_i none
    rw [List.isEmpty_iff.mp none, nothing]
  · rw [List.reverse_append, drop (by simpa using blank')]

end Text

/-! ## Decimals -/

namespace Read

/-- A magnitude with an optional sign before it. -/
inductive NumberText (Whole : List Char → Prop) : List Char → Prop where
  | signed {sign cs} (hs : sign ∈ [[], ['+'], ['-']]) (h : Magnitude Whole cs) :
      NumberText Whole (sign ++ cs)

variable {cs tail digits whole fraction exponent sign : List Char} {Whole : List Char → Prop}

theorem exists_signed (cs : List Char) :
    ∃ sign ∈ [[], ['+'], ['-']], cs = sign ++ (signed cs).2 := by
  unfold signed
  split
  · exact ⟨['-'], by simp, rfl⟩
  · exact ⟨['+'], by simp, rfl⟩
  · exact ⟨[], by simp, rfl⟩

theorem exponent_of_read {e : Char} {n : Int} (mark : e = 'e' ∨ e = 'E')
    (h : exponent? tail = some n) : Exponent (e :: tail) := by
  have letter : e ∈ ['e', 'E'] := by simpa using mark
  have digits : IsDigits (signed tail).2 := by
    unfold exponent? at h
    obtain ⟨m, hm, -⟩ := Option.map_eq_some_iff.mp h
    obtain ⟨_, read, -⟩ := Option.bind_eq_some_iff.mp hm
    exact digits_of_nat? read
  obtain ⟨sign, hs, split⟩ := exists_signed tail
  rw [split]
  simp only [List.mem_cons, List.not_mem_nil, or_false] at hs
  rcases hs with rfl | rfl | rfl
  · exact .present (.unsigned letter) digits
  · exact .present (.signed letter (by simp)) digits
  · exact .present (.signed letter (by simp)) digits

/-- What is behind the digits before and after the point is an exponent. -/
theorem exponent_of_end {rest : List Char} {coefficient : Nat} {places : Int} {n : Nat × Int}
    (h : (match rest with
      | [] => some (coefficient, -places)
      | c :: tail =>
        if c = 'e' ∨ c = 'E' then (exponent? tail).map fun e => (coefficient, e - places)
        else none) = some n) : Exponent rest := by
  split at h
  · exact .absent
  · obtain ⟨mark, h⟩ := Option.ite_none_right_eq_some.mp h
    obtain ⟨e, read, -⟩ := Option.map_eq_some_iff.mp h
    exact exponent_of_read mark read

theorem magnitude_of_scientific? {n : Nat × Int} (h : scientific? cs = some n) :
    Magnitude Digits cs := by
  obtain ⟨whole, rest, rfl, hw, breaks⟩ := exists_takeWhile Text.isDigit cs
  unfold scientific? at h
  simp only [takeWhile_exact hw breaks, dropWhile_exact hw breaks] at h
  have digit {fraction : List Char} (some : ¬ (whole.isEmpty && fraction.isEmpty) = true)
      (digits : Digits fraction) : ∃ c ∈ whole ++ fraction, Text.isDigit c := by
    have nonempty : whole ++ fraction ≠ [] := by simpa using some
    obtain ⟨c, hc⟩ := List.exists_mem_of_ne_nil _ nonempty
    exact ⟨c, hc, (List.mem_append.mp hc).elim (hw c) (digits c)⟩
  split at h
  · rename_i tail
    obtain ⟨places, rest, rfl, hp, breaks'⟩ := exists_takeWhile Text.isDigit tail
    simp only [takeWhile_exact hp breaks', dropWhile_exact hp breaks'] at h
    obtain ⟨some, h⟩ := Option.ite_none_left_eq_some.mp h
    obtain ⟨c, hc, isDigit⟩ := digit some hp
    exact .parts hw (.present hp) (exponent_of_end h) ⟨c, by
      simp only [List.mem_append, List.mem_cons] at hc ⊢
      tauto, isDigit⟩
  · obtain ⟨some, h⟩ := Option.ite_none_left_eq_some.mp h
    exact .parts hw .absent (exponent_of_end h) (digit some (List.forall_mem_nil _))

/-- The sign is taken off, and no other. -/
theorem signed_append (hs : sign ∈ [[], ['+'], ['-']]) (hm : Magnitude Digits cs) :
    (signed (sign ++ cs)).2 = cs := by
  have unsigned : ∀ c ∈ cs.head?, c ≠ '+' ∧ c ≠ '-' := by
    obtain @⟨whole, fraction, exponent, hw, hf, he, c, hc, digit⟩ := hm
    cases whole with
    | cons d whole =>
        rintro _ ⟨⟩
        exact (digit_plain (hw d List.mem_cons_self)).2.2.2
    | nil =>
        cases hf with
        | absent => cases hc
        | present =>
            rintro _ ⟨⟩
            decide
  simp only [List.mem_cons, List.not_mem_nil, or_false] at hs
  rcases hs with rfl | rfl | rfl
  · rw [List.nil_append]
    unfold signed
    split
    · exact absurd rfl (unsigned _ rfl).2
    · exact absurd rfl (unsigned _ rfl).1
    · rfl
  · rfl
  · rfl

/-- A text of numerals is read as a double just if it is a number. -/
theorem float?_isSome_iff (numerals : ∀ c ∈ cs, Json.isNumeral c) :
    (float? cs).isSome ↔ NumberText Digits cs := by
  constructor
  · intro h
    obtain ⟨x, read⟩ := Option.isSome_iff_exists.mp h
    obtain ⟨bits, read, -⟩ := Option.map_eq_some_iff.mp read
    obtain ⟨sign, hs, split⟩ := exists_signed cs
    have noName : ∀ word : List Char, 'n' ∈ word → (signed cs).2.map Char.toLower ≠ word := by
      rintro _ named rfl
      obtain ⟨c, hc, lower⟩ := List.mem_map.mp named
      have all : "0123456789+-.eE".toList.all fun c => c.toLower != 'n' := by decide
      have mem : c ∈ cs := by
        rw [split]
        exact List.mem_append_right _ hc
      have numeral := List.all_eq_true.mp all c (Json.isNumeral_iff_mem.mp (numerals c mem))
      exact bne_iff_ne.mp numeral lower
    unfold binary? at read
    dsimp only at read
    split at read
    · rename_i n scientific
      rw [split]
      exact .signed hs (magnitude_of_scientific? ‹_›)
    · split at read
      · rename_i named
        rcases named with named | named
        · exact absurd named (noName _ (by decide))
        · exact absurd named (noName _ (by decide))
      · split at read
        · exact absurd ‹_› (noName _ (by decide))
        · cases read
  · rintro ⟨hs, hm⟩
    obtain ⟨n, read⟩ := exists_scientific hm
    rw [float?, Option.isSome_map, binary?]
    simp only [signed_append hs hm, read]
    rfl

end Read

/-! ## Separators -/

namespace Json

open Read

variable {cs sign whole rest body : List Char}

/-- Digits with separators in between, or nothing. The first and the last character are digits. -/
structure Grouped (cs : List Char) : Prop where
  within : ∀ c ∈ cs, Text.isDigit c ∨ c = ','
  first : ∀ c ∈ cs.head?, Text.isDigit c
  last : ∀ c ∈ cs.getLast?, Text.isDigit c

theorem isIntegral_of_within {c : Char} (h : Text.isDigit c ∨ c = ',') : isIntegral c := by
  rcases h with digit | rfl
  · obtain ⟨point, mark, -⟩ := digit_plain digit
    simp only [List.mem_cons, List.not_mem_nil, or_false, not_or] at mark
    simp [isIntegral, point, mark]
  · rfl

/-- Neither a fraction nor an exponent is integral from its beginning on. -/
theorem breaks_behind_point {fraction exponent : List Char} (hf : OpenFraction fraction)
    (he : Exponent exponent) : Breaks isIntegral (fraction ++ exponent) := by
  cases hf with
  | present => exact breaks_cons.mpr rfl
  | absent =>
      rcases exists_exponent he with rfl | ⟨e, tail, n, rfl, rfl | rfl, -⟩
      · exact breaks_nil
      · exact breaks_cons.mpr rfl
      · exact breaks_cons.mpr rfl

/-- What stands before the point of a decimal is just what is integral of it. -/
theorem integral_split {Whole : List Char → Prop} (h : NumberText Whole cs)
    (inside : ∀ cs, Whole cs → ∀ c ∈ cs, Text.isDigit c ∨ c = ',') :
    ∃ sign ∈ [[], ['+'], ['-']], ∃ whole fraction exponent, Whole whole ∧ OpenFraction fraction ∧
      Exponent exponent ∧ (∃ c ∈ whole ++ fraction, Text.isDigit c) ∧
      cs.takeWhile isIntegral = sign ++ whole ∧ cs.dropWhile isIntegral = fraction ++ exponent := by
  obtain ⟨hs, hm⟩ := h
  obtain ⟨hw, hf, he, some⟩ := hm
  rename_i sign whole fraction exponent
  have integral : ∀ c ∈ sign ++ whole, isIntegral c := by
    intro c hc
    rcases List.mem_append.mp hc with hc | hc
    · have signs : [[], ['+'], ['-']].all fun sign => sign.all isIntegral := by decide
      exact List.all_eq_true.mp (List.all_eq_true.mp signs sign hs) c hc
    · exact isIntegral_of_within (inside whole hw c hc)
  have breaks := breaks_behind_point hf he
  refine ⟨sign, hs, whole, fraction, exponent, hw, hf, he, some, ?_, ?_⟩
  · rw [← List.append_assoc, takeWhile_exact integral breaks]
  · rw [← List.append_assoc, dropWhile_exact integral breaks]

/-- The sign before an integral text is a sign, whether separators are left out or not. -/
theorem grouped_of_filter (hs : sign ∈ [[], ['+'], ['-']]) (hw : Digits whole)
    {integral : List Char} (same : integral.filter (· != ',') = sign ++ whole)
    (first : (integral.dropWhile fun c => c == '+' || c == '-').head? ≠ some ',')
    (last : integral.getLast? ≠ some ',') :
    ∃ grouped, integral = sign ++ grouped ∧ Grouped grouped ∧
      grouped.filter (· != ',') = whole := by
  obtain ⟨grouped, rfl, left⟩ : ∃ grouped, integral = sign ++ grouped ∧
      grouped.filter (· != ',') = whole := by
    have signed {s : Char} (same : integral.filter (· != ',') = s :: whole) :
        ∃ grouped, integral = s :: grouped ∧ grouped.filter (· != ',') = whole := by
      cases integral with
      | nil => cases same
      | cons c tail =>
          by_cases separator : c = ','
          · subst separator
            exact absurd rfl first
          · rw [List.filter_cons_of_pos (by simpa using separator)] at same
            obtain ⟨rfl, left⟩ := List.cons_eq_cons.mp same
            exact ⟨tail, rfl, left⟩
    simp only [List.mem_cons, List.not_mem_nil, or_false] at hs
    rcases hs with rfl | rfl | rfl
    · exact ⟨integral, rfl, same⟩
    · exact signed same
    · exact signed same
  have within : ∀ c ∈ grouped, Text.isDigit c ∨ c = ',' := by
    intro c hc
    by_cases separator : c = ','
    · exact .inr separator
    · refine .inl (hw c ?_)
      rw [← left]
      exact List.mem_filter.mpr ⟨hc, by simpa using separator⟩
  have signs : ∀ c ∈ sign, (c == '+' || c == '-') = true := by
    simp only [List.mem_cons, List.not_mem_nil, or_false] at hs
    rcases hs with rfl | rfl | rfl <;> simp
  refine ⟨grouped, rfl, ⟨within, fun c hc => ?_, fun c hc => ?_⟩, left⟩
  · refine (within c (List.mem_of_mem_head? hc)).resolve_right ?_
    rintro rfl
    obtain ⟨tail, rfl⟩ := List.head?_eq_some_iff.mp hc
    rw [List.dropWhile_append_of_pos signs] at first
    exact first rfl
  · refine (within c (List.mem_of_getLast? hc)).resolve_right ?_
    rintro rfl
    obtain ⟨front, rfl⟩ := List.getLast?_eq_some_iff.mp hc
    rw [← List.append_assoc, List.getLast?_concat] at last
    exact last rfl

theorem digits_within (cs : List Char) (h : Digits cs) : ∀ c ∈ cs, Text.isDigit c ∨ c = ',' :=
  fun c hc => .inl (h c hc)

theorem grouped_of_withoutSeparators? (h : withoutSeparators? cs = some body)
    (hb : NumberText Digits body) : NumberText Grouped cs := by
  unfold withoutSeparators? at h
  obtain ⟨ends, h⟩ := Option.ite_none_left_eq_some.mp h
  obtain ⟨first, last⟩ := not_or.mp ends
  cases h
  obtain ⟨sign, hs, whole, fraction, exponent, hw, hf, he, some, front, back⟩ :=
    integral_split hb digits_within
  -- the separators are left out of what is integral, and of nothing else
  have integral : ∀ c ∈ (cs.takeWhile isIntegral).filter (· != ','), isIntegral c :=
    fun c hc => List.mem_takeWhile_imp (List.mem_of_mem_filter hc)
  have breaks : Breaks isIntegral (cs.dropWhile isIntegral) := by
    intro d hd
    have none := List.head?_dropWhile_not isIntegral cs
    rw [Option.mem_def.mp hd] at none
    simpa using none
  rw [takeWhile_exact integral breaks] at front
  rw [dropWhile_exact integral breaks] at back
  obtain ⟨grouped, split, shape, left⟩ := grouped_of_filter hs hw front first last
  have whole : cs = sign ++ (grouped ++ (fraction ++ exponent)) := by
    rw [← List.append_assoc, ← split, ← back, List.takeWhile_append_dropWhile]
  rw [whole]
  refine .signed hs (.parts shape hf he ?_)
  obtain ⟨c, hc, digit⟩ := some
  refine ⟨c, ?_, digit⟩
  rcases List.mem_append.mp hc with hc | hc
  · rw [← left] at hc
    exact List.mem_append_left _ (List.mem_of_mem_filter hc)
  · exact List.mem_append_right _ hc

/-- A fraction and an exponent consist of numerals. -/
theorem numerals_behind_point {fraction exponent : List Char} (hf : OpenFraction fraction)
    (he : Exponent exponent) : ∀ c ∈ fraction ++ exponent, isNumeral c := by
  have digits {ds : List Char} (h : Digits ds) : ∀ c ∈ ds, isNumeral c :=
    fun c hc => by simp [isNumeral, h c hc]
  simp only [List.forall_mem_append]
  constructor
  · cases hf with
    | absent => exact List.forall_mem_nil _
    | present h => exact List.forall_mem_cons.mpr ⟨rfl, digits h⟩
  · cases he with
    | absent => exact List.forall_mem_nil _
    | present hm h =>
        refine List.forall_mem_append.mpr ⟨?_, digits h.2⟩
        cases hm with
        | unsigned he =>
            simp only [List.mem_cons, List.not_mem_nil, or_false] at he
            rcases he with rfl | rfl <;> exact List.all_eq_true.mp rfl
        | signed he hs =>
            simp only [List.mem_cons, List.not_mem_nil, or_false] at he hs
            rcases he with rfl | rfl <;> rcases hs with rfl | rfl <;> exact List.all_eq_true.mp rfl

theorem NumberText.numerals (h : NumberText Digits cs) :
    (∀ c ∈ cs, isNumeral c) ∧ ∃ c ∈ cs, Text.isDigit c := by
  obtain ⟨hs, hm⟩ := h
  obtain ⟨hw, hf, he, c, hc, digit⟩ := hm
  rename_i sign whole fraction exponent
  have signs : [[], ['+'], ['-']].all fun sign => sign.all isNumeral := by decide
  refine ⟨List.forall_mem_append.mpr ⟨List.all_eq_true.mp (List.all_eq_true.mp signs sign hs),
    List.forall_mem_append.mpr ⟨fun c hc => by simp [isNumeral, hw c hc],
      numerals_behind_point hf he⟩⟩, c, ?_, digit⟩
  simp only [List.mem_append] at hc ⊢
  tauto

/-- Separators among the digits of a number can be left out. -/
theorem withoutSeparators?_grouped (h : NumberText Grouped cs) :
    withoutSeparators? cs = some (cs.filter (· != ',')) ∧
      NumberText Digits (cs.filter (· != ',')) := by
  obtain ⟨sign, hs, whole, fraction, exponent, hw, hf, he, some, front, back⟩ :=
    integral_split h fun _ => Grouped.within
  have whole_eq : cs = sign ++ whole ++ (fraction ++ exponent) := by
    rw [← front, ← back, List.takeWhile_append_dropWhile]
  have signs : ∀ c ∈ sign, (c == '+' || c == '-') = true ∧ c ≠ ',' := by
    simp only [List.mem_cons, List.not_mem_nil, or_false] at hs
    rcases hs with rfl | rfl | rfl <;> simp
  have unsigned : whole.dropWhile (fun c => c == '+' || c == '-') = whole := by
    cases whole with
    | nil => rfl
    | cons d whole =>
        obtain ⟨-, -, -, plus, minus⟩ := digit_plain (hw.first d rfl)
        exact List.dropWhile_cons_of_neg (by simp [plus, minus])
  have first : whole.head? ≠ Option.some ',' :=
    fun separator => absurd (hw.first _ separator) (by decide)
  have last : (sign ++ whole).getLast? ≠ Option.some ',' := by
    intro separator
    rcases List.mem_append.mp (List.mem_of_getLast? separator) with there | there
    · exact (signs _ there).2 rfl
    · rw [List.getLast?_append_of_ne_nil _ (List.ne_nil_of_mem there)] at separator
      exact absurd (hw.last _ separator) (by decide)
  have kept : (fraction ++ exponent).filter (· != ',') = fraction ++ exponent := by
    rw [List.filter_eq_self]
    intro c hc
    have numeral := numerals_behind_point hf he c hc
    rw [bne_iff_ne]
    rintro rfl
    cases numeral
  refine ⟨?_, ?_⟩
  · unfold withoutSeparators?
    rw [front, back]
    dsimp only
    rw [List.dropWhile_append_of_pos fun c hc => (signs c hc).1, unsigned,
      if_neg (not_or.mpr ⟨first, last⟩), ← kept, ← List.filter_append, ← whole_eq]
  · have signKept : sign.filter (· != ',') = sign :=
      List.filter_eq_self.mpr fun c hc => by simpa using (signs c hc).2
    rw [whole_eq, List.filter_append, kept, List.filter_append, signKept, List.append_assoc]
    refine .signed hs (.parts (fun c hc => ?_) hf he ?_)
    · obtain ⟨mem, other⟩ := List.mem_filter.mp hc
      exact (hw.within c mem).resolve_right (by simpa using other)
    · obtain ⟨c, hc, digit⟩ := some
      refine ⟨c, ?_, digit⟩
      rcases List.mem_append.mp hc with hc | hc
      · have other : c ≠ ',' := by
          rintro rfl
          cases digit
        exact List.mem_append_left _ (List.mem_filter.mpr ⟨hc, by simpa using other⟩)
      · exact List.mem_append_right _ hc

/-- The names of the numbers that have no digits. -/
def numberNames : List String := ["NaN", "Infinity", "+Infinity", "-Infinity"]

theorem namedNumber?_isSome_iff {word : String} :
    (namedNumber? word).isSome ↔ word ∈ numberNames := by
  unfold namedNumber? numberNames
  split <;> simp_all

/-- A decimal is no name of a number. -/
theorem namedNumber?_of_decimal (h : NumberText Grouped cs) :
    namedNumber? (String.ofList cs) = none := by
  have digits := (withoutSeparators?_grouped h).2
  have other (c : Char) (separator : c ≠ ',') (numeral : isNumeral c = false) : c ∉ cs := by
    intro hc
    have kept := (NumberText.numerals digits).1 c
      (List.mem_filter.mpr ⟨hc, by simpa using separator⟩)
    rw [numeral] at kept
    cases kept
  exact namedNumber?_of_notMem (other 'N' (by decide) (by decide))
    (other 'I' (by decide) (by decide))

variable {text : String}

theorem leafFloat?_eq (text : String) : leafFloat? text =
    (namedNumber? (Text.trim text) <|> (withoutSeparators? (Text.trimChars text.toList)).bind
      fun body => if body.any Text.isDigit && body.all isNumeral then Read.float? body else none) := rfl

theorem leafFloat?_of_decimal (h : NumberText Grouped (Text.trimChars text.toList)) :
    leafFloat? text = Read.float? ((Text.trimChars text.toList).filter (· != ',')) := by
  obtain ⟨left, digits⟩ := withoutSeparators?_grouped h
  obtain ⟨numerals, digit⟩ := NumberText.numerals digits
  rw [leafFloat?_eq, Text.trim, namedNumber?_of_decimal h, left]
  refine if_pos ?_
  rw [Bool.and_eq_true, List.any_eq_true, List.all_eq_true]
  exact ⟨digit, numerals⟩

theorem leafFloat?_isSome_iff : (leafFloat? text).isSome ↔
    Text.trim text ∈ numberNames ∨ NumberText Grouped (Text.trimChars text.toList) := by
  rw [← namedNumber?_isSome_iff]
  constructor
  · intro h
    rw [leafFloat?_eq] at h
    cases named : namedNumber? (Text.trim text) with
    | some x => exact .inl rfl
    | none =>
        obtain ⟨x, h⟩ := Option.isSome_iff_exists.mp h
        rw [named] at h
        obtain ⟨body, left, h⟩ := Option.bind_eq_some_iff.mp h
        obtain ⟨numerals, read⟩ := Option.ite_none_right_eq_some.mp h
        rw [Bool.and_eq_true, List.all_eq_true] at numerals
        have decimal := (float?_isSome_iff numerals.2).mp (Option.isSome_of_eq_some read)
        exact .inr (grouped_of_withoutSeparators? left decimal)
  · rintro (named | decimal)
    · obtain ⟨x, named⟩ := Option.isSome_iff_exists.mp named
      rw [leafFloat?_eq, named]
      rfl
    · have digits := (withoutSeparators?_grouped decimal).2
      rw [leafFloat?_of_decimal decimal]
      exact (float?_isSome_iff (NumberText.numerals digits).1).mpr digits

/-- Blanks around a text do not count. -/
theorem leafFloat?_congr {text' : String}
    (same : Text.trimChars text.toList = Text.trimChars text'.toList) :
    leafFloat? text = leafFloat? text' := by
  rw [leafFloat?_eq, leafFloat?_eq, Text.trim, Text.trim, same]

/-- A leaf is a number just if its text is the name of one or a decimal, and separators do not
change which number it is. -/
theorem number_leaves (text : String) :
    ((leafFloat? text).isSome ↔
      Text.trim text ∈ numberNames ∨ NumberText Grouped (Text.trimChars text.toList)) ∧
    ∀ x, leafFloat? text = some x →
      leafFloat? (String.ofList (text.toList.filter (· != ','))) = some x := by
  refine ⟨leafFloat?_isSome_iff, fun x read => ?_⟩
  obtain ⟨front, back, split, blank, blank'⟩ := Text.exists_trimChars text.toList
  have visible {blanks : List Char} (blank : ∀ c ∈ blanks, Text.isWhiteSpace c) :
      blanks.filter (· != ',') = blanks := by
    rw [List.filter_eq_self]
    intro c hc
    rw [bne_iff_ne]
    rintro rfl
    exact absurd (blank _ hc) (by decide)
  have left : text.toList.filter (· != ',') =
      front ++ ((Text.trimChars text.toList).filter (· != ',') ++ back) := by
    conv_lhs => rw [split, List.filter_append, List.filter_append, visible blank, visible blank']
  rcases leafFloat?_isSome_iff.mp (Option.isSome_of_eq_some read) with named | decimal
  · have plain : (Text.trimChars text.toList).filter (· != ',') = Text.trimChars text.toList := by
      have names : numberNames.all fun name => name.toList.all (· != ',') := by decide
      have name := List.all_eq_true.mp names _ named
      rw [Text.trim, String.toList_ofList] at name
      exact List.filter_eq_self.mpr (List.all_eq_true.mp name)
    rw [left, plain, ← split, String.ofList_toList]
    exact read
  · obtain ⟨numerals, digit⟩ := NumberText.numerals (withoutSeparators?_grouped decimal).2
    have trimmed : Text.trimChars (String.ofList (text.toList.filter (· != ','))).toList =
        Text.trimChars (String.ofList ((Text.trimChars text.toList).filter (· != ','))).toList := by
      rw [left, String.toList_ofList, String.toList_ofList, Text.trimChars_padded blank blank']
    rw [leafFloat?_congr trimmed, leafFloat?_of_numerals numerals digit,
      ← leafFloat?_of_decimal decimal, read]

/-- A number with a sign, a separator, a fraction and an exponent, and blanks around it. -/
theorem number_leaves_parts :
    ∃ x, leafFloat? " +1,234.5e-1 " = some x ∧ leafFloat? " +1234.5e-1 " = some x := by
  have whole : Grouped "1,234".toList := by
    refine ⟨List.forall_iff_forall_mem.mp (by decide), ?_, ?_⟩
    all_goals
      rintro _ ⟨⟩
      decide
  have fraction : Digits "5".toList := List.all_eq_true.mp (by decide)
  have exponent : IsDigits "1".toList := ⟨by decide, List.all_eq_true.mp (by decide)⟩
  have parts : Magnitude Grouped ("1,234".toList ++ (".5".toList ++ "e-1".toList)) :=
    .parts whole (.present fraction)
      (.present (.signed (by decide : 'e' ∈ _) (by decide : '-' ∈ _)) exponent) ⟨'1', by decide, rfl⟩
  have decimal : NumberText Grouped (Text.trimChars " +1,234.5e-1 ".toList) :=
    .signed (by decide : ['+'] ∈ _) parts
  obtain ⟨x, read⟩ :=
    Option.isSome_iff_exists.mp ((number_leaves " +1,234.5e-1 ").1.mpr (.inr decimal))
  exact ⟨x, read, (number_leaves " +1,234.5e-1 ").2 x read⟩

end Json
end TypedExpr
