import TypedExpr.Json.Leaf
import TypedExpr.Proofs.Characters
import Mathlib.Data.List.Basic
import Mathlib.Tactic.Ring

/-! # Texts of leaves

The text that a double or an identifier is written as is judged to be that double or identifier
again. Numbers are made of characters that neither blanks nor separators nor names of numbers have
in common with them; an identifier has more hyphens than any number.
-/

namespace TypedExpr

namespace Text

variable {cs : List Char}

/-- A text with visible characters at both ends has no blanks around it. -/
theorem trimChars_of_ends (first : ∀ c ∈ cs.head?, isWhiteSpace c = false)
    (last : ∀ c ∈ cs.getLast?, isWhiteSpace c = false) : trimChars cs = cs := by
  have keep (l : List Char) (h : ∀ c ∈ l.head?, isWhiteSpace c = false) : trimStart l = l := by
    cases l with
    | nil => rfl
    | cons c rest => exact List.dropWhile_cons_of_neg (by simp [h c rfl])
  unfold trimChars
  rw [keep cs first, keep cs.reverse (by simpa using last), List.reverse_reverse]

theorem trimChars_of_not_blank (h : ∀ c ∈ cs, isWhiteSpace c = false) : trimChars cs = cs :=
  trimChars_of_ends (fun c hc => h c (List.mem_of_head? hc)) fun c hc =>
    h c (List.mem_of_getLast? hc)

end Text

/-! ## Numbers -/

namespace Json

variable {c : Char} {cs : List Char}

theorem isNumeral_iff_mem : isNumeral c ↔ c ∈ "0123456789+-.eE".toList := by
  have split : "0123456789+-.eE".toList = "0123456789".toList ++ ['+', '-', '.', 'e', 'E'] := by
    decide
  rw [split, List.mem_append, ← Text.isDigit_iff_mem]
  simp only [isNumeral, isIntegral, Bool.or_eq_true, beq_iff_eq, Bool.not_not, List.mem_cons,
    List.not_mem_nil, or_false]
  tauto

/-- A text of these characters has no blanks, no separators, and is not the name of a number. -/
private theorem numeral_plain :
    ∀ c ∈ "0123456789+-.eE".toList, Text.isWhiteSpace c = false ∧ c ≠ ',' ∧ c ≠ 'N' ∧ c ≠ 'I' := by
  have all : "0123456789+-.eE".toList.all fun c =>
      !Text.isWhiteSpace c && (c != ',' && (c != 'N' && c != 'I')) := by decide
  simpa only [List.all_eq_true, Bool.and_eq_true, Bool.not_eq_true', bne_iff_ne] using all

theorem isNumeral_visible (h : isNumeral c) : Text.isWhiteSpace c = false :=
  (numeral_plain c (isNumeral_iff_mem.mp h)).1

theorem namedNumber?_of_notMem (hN : 'N' ∉ cs) (hI : 'I' ∉ cs) :
    namedNumber? (String.ofList cs) = none := by
  have other : ∀ word : String, 'N' ∈ word.toList ∨ 'I' ∈ word.toList →
      String.ofList cs ≠ word := by
    rintro word named rfl
    simp [hN, hI] at named
  unfold namedNumber?
  split
  · exact absurd ‹_› (other "NaN" (by decide))
  · exact absurd ‹_› (other "Infinity" (by decide))
  · exact absurd ‹_› (other "+Infinity" (by decide))
  · exact absurd ‹_› (other "-Infinity" (by decide))
  · rfl

theorem withoutSeparators?_of_notMem (h : ',' ∉ cs) : withoutSeparators? cs = some cs := by
  have integral : ',' ∉ cs.takeWhile isIntegral := fun mem =>
    h ((List.takeWhile_sublist _).subset mem)
  unfold withoutSeparators?
  rw [if_neg]
  · rw [List.filter_eq_self.mpr, List.takeWhile_append_dropWhile]
    intro c hc
    have : c ≠ ',' := by
      rintro rfl
      exact integral hc
    simpa using this
  · rintro (first | last)
    · exact integral ((List.dropWhile_sublist _).subset (List.mem_of_mem_head? first))
    · exact integral (List.mem_of_getLast? last)

/-- A text of numerals with a digit is judged by what it reads as. -/
theorem leafFloat?_of_numerals (h : ∀ c ∈ cs, isNumeral c) (digit : ∃ c ∈ cs, Text.isDigit c) :
    leafFloat? (String.ofList cs) = Read.float? cs := by
  have plain : ∀ c ∈ cs, Text.isWhiteSpace c = false ∧ c ≠ ',' ∧ c ≠ 'N' ∧ c ≠ 'I' :=
    fun c hc => numeral_plain c (isNumeral_iff_mem.mp (h c hc))
  have named := namedNumber?_of_notMem (fun mem => (plain _ mem).2.2.1 rfl)
    (fun mem => (plain _ mem).2.2.2 rfl)
  have separated := withoutSeparators?_of_notMem fun mem => (plain _ mem).2.1 rfl
  have digits : (cs.any Text.isDigit && cs.all isNumeral) = true := by
    simpa using ⟨digit, h⟩
  simp only [leafFloat?, String.toList_ofList, named,
    Text.trimChars_of_not_blank fun c hc => (plain c hc).1, separated]
  exact if_pos digits

end Json

namespace Binary

/-- Nothing but numerals, and a digit among them. -/
private def Numeral (cs : List Char) : Prop :=
  (∀ c ∈ cs, Json.isNumeral c) ∧ ∃ c ∈ cs, Text.isDigit c

private theorem numeral_of_isDigit {c : Char} (h : Text.isDigit c) : Json.isNumeral c := by
  simp [Json.isNumeral, h]

private theorem Numeral.of_digits {cs : List Char} (h : ∀ c ∈ cs, Text.isDigit c) (some : cs ≠ []) :
    Numeral cs := by
  obtain ⟨c, rest, rfl⟩ := List.exists_cons_of_ne_nil some
  exact ⟨fun c hc => numeral_of_isDigit (h c hc), c, by simp, h c (by simp)⟩

theorem isDigit_digitsOf {n : Nat} : ∀ c ∈ digitsOf n, Text.isDigit c := by
  intro c hc
  have digit := Nat.isDigit_of_mem_toDigits (by decide) (by decide) hc
  simpa [Char.isDigit, Text.isDigit, Char.le_def] using digit

private theorem Numeral.append {l r : List Char} (h : Numeral l) (hr : ∀ c ∈ r, Json.isNumeral c) :
    Numeral (l ++ r) := by
  obtain ⟨numerals, c, mem, digit⟩ := h
  refine ⟨?_, c, by simp [mem], digit⟩
  simpa [or_imp, forall_and] using ⟨numerals, hr⟩

private theorem Numeral.withPoint {digits : List Char} (h : ∀ c ∈ digits, Text.isDigit c)
    (places : Nat) : Numeral (withPoint digits places) := by
  unfold Binary.withPoint
  split
  · rename_i short
    refine (of_digits (fun c hc => h c (List.mem_of_mem_take hc)) ?_).append ?_
    · rw [← List.length_pos_iff, List.length_take]
      omega
    · intro c hc
      rcases List.mem_cons.mp hc with rfl | hc
      · rfl
      · exact numeral_of_isDigit (h c (List.mem_of_mem_drop hc))
  · have zero : Numeral ['0'] := of_digits (by simp [Text.isDigit]) (by simp)
    refine zero.append ?_
    simp only [zeros, List.mem_cons, List.mem_append, List.mem_replicate]
    rintro c (rfl | ⟨-, rfl⟩ | hc)
    · rfl
    · rfl
    · exact numeral_of_isDigit (h c hc)

private theorem isNumeral_exponent {n : Int} : ∀ c ∈ (toString n).toList, Json.isNumeral c := by
  have natural : ∀ m : Nat, ∀ c ∈ m.repr.toList, Json.isNumeral c := by
    intro m c hc
    rw [Nat.repr_eq_ofList_toDigits, String.toList_ofList] at hc
    exact numeral_of_isDigit (isDigit_digitsOf c hc)
  intro c hc
  cases n with
  | ofNat m => exact natural m c hc
  | negSucc m =>
      have hc : c ∈ ("-" ++ (m + 1).repr).toList := hc
      rw [String.toList_append, List.mem_append] at hc
      rcases hc with hc | hc
      · obtain rfl : c = '-' := by simpa using hc
        rfl
      · exact natural _ c hc

private theorem Numeral.exchange (s : Scientific) : Numeral (exchange s) := by
  have digits : ∀ c ∈ digitsOf s.digits, Text.isDigit c := isDigit_digitsOf
  have some : digitsOf s.digits ≠ [] := Nat.toDigits_ne_nil
  unfold Binary.exchange
  dsimp only
  split
  · rw [List.append_assoc]
    refine (of_digits digits some).append ?_
    simp only [zeros, List.mem_append, List.mem_replicate, List.mem_cons, List.not_mem_nil,
      or_false]
    rintro c (⟨-, rfl⟩ | rfl | rfl) <;> rfl
  · split
    · exact withPoint digits _
    · have exponent : ∀ c ∈ 'e' :: (toString ((digitsOf s.digits).length + s.exponent - 1)).toList,
          Json.isNumeral c := by
        intro c hc
        rcases List.mem_cons.mp hc with rfl | hc
        · rfl
        · exact isNumeral_exponent c hc
      refine Numeral.append ?_ exponent
      split
      · contradiction
      · rename_i d written
        rw [written] at digits
        exact of_digits digits (by simp)
      · rename_i d rest _ written
        rw [written] at digits
        have first : Numeral [d] := of_digits (by simp [digits]) (by simp)
        refine first.append ?_
        intro c hc
        rcases List.mem_cons.mp hc with rfl | hc
        · rfl
        · exact numeral_of_isDigit (digits c (by simp [hc]))

/-- The exchange notation of a finite double consists of numerals. -/
private theorem exchangeText?_numeral {x : Float} {text : String} (h : exchangeText? x = some text) :
    Numeral text.toList := by
  unfold exchangeText? at h
  split at h
  · rename_i negative m e _
    cases h
    have digits : Numeral
        (if m = 0 then ['0', '.', '0'] else exchange (BinaryFormat.double.shortest .even m e)) := by
      split
      · exact ⟨List.all_eq_true.mp rfl, '0', by simp, rfl⟩
      · exact .exchange _
    obtain ⟨numerals, c, mem, digit⟩ := digits
    cases negative with
    | false => simpa [Numeral] using ⟨numerals, c, mem, digit⟩
    | true => exact ⟨by simpa using ⟨rfl, numerals⟩, c, by simp [mem], digit⟩
  · cases h

/-- The double comes back from its exchange notation, if it has one. -/
def ReadsBack (x : Float) : Prop :=
  ∀ text, exchangeText? x = some text → Read.float? text.toList = some x

theorem ReadsBack.leafFloat? {x : Float} {text : String} (h : ReadsBack x)
    (written : exchangeText? x = some text) : Json.leafFloat? text = some x := by
  obtain ⟨numerals, digit⟩ := exchangeText?_numeral written
  have read := Json.leafFloat?_of_numerals numerals digit
  rw [String.ofList_toList] at read
  rw [read, h text written]

end Binary

namespace Read

variable {cs : List Char}

private theorem count_hyphen_of_digits (h : ∀ c ∈ cs, Text.isDigit c) : cs.count '-' = 0 := by
  rw [List.count_eq_zero]
  intro mem
  exact absurd (h _ mem) (by decide)

private theorem count_hyphen_signed (cs : List Char) :
    cs.count '-' ≤ (signed cs).2.count '-' + 1 := by
  unfold signed
  split <;> simp

private theorem count_hyphen_dropWhile (cs : List Char) :
    (cs.dropWhile Text.isDigit).count '-' = cs.count '-' := by
  have digits : (cs.takeWhile Text.isDigit).count '-' = 0 :=
    count_hyphen_of_digits fun _ hc => List.all_eq_true.mp List.all_takeWhile _ hc
  calc (cs.dropWhile Text.isDigit).count '-'
      = (cs.takeWhile Text.isDigit ++ cs.dropWhile Text.isDigit).count '-' := by
        rw [List.count_append, digits, Nat.zero_add]
    _ = cs.count '-' := by rw [List.takeWhile_append_dropWhile]

private theorem count_hyphen_of_exponent? {n : Int} (h : exponent? cs = some n) :
    cs.count '-' ≤ 1 := by
  unfold exponent? at h
  obtain ⟨m, hm, -⟩ := Option.map_eq_some_iff.mp h
  obtain ⟨_, read, -⟩ := Option.bind_eq_some_iff.mp hm
  have body : (signed cs).2.count '-' = 0 := count_hyphen_of_digits (digits_of_nat? read).2
  have whole := count_hyphen_signed cs
  omega

/-- A number has a minus sign at most before it and before its exponent. -/
theorem count_hyphen_of_scientific? {n : Nat × Int} (h : scientific? cs = some n) :
    cs.count '-' ≤ 1 := by
  -- what stands after the digits before and after the point
  have marked : ∀ {c : Char} {tail : List Char} {coefficient : Nat} {places : Int},
      (if c = 'e' ∨ c = 'E' then (exponent? tail).map fun e => (coefficient, e - places)
        else none) = some n → (c :: tail).count '-' ≤ 1 := by
    intro c tail coefficient places h
    simp only [Option.ite_none_right_eq_some, Option.map_eq_some_iff] at h
    obtain ⟨mark, e, exponent, -⟩ := h
    have tail := count_hyphen_of_exponent? exponent
    rcases mark with rfl | rfl <;> simpa using tail
  rw [← count_hyphen_dropWhile]
  unfold scientific? at h
  generalize cs.dropWhile Text.isDigit = after at h ⊢
  dsimp only at h
  split at h
  · rename_i tail
    dsimp only at h
    split at h
    · cases h
    · have short : (tail.dropWhile Text.isDigit).count '-' ≤ 1 := by
        split at h
        · rename_i ended
          simp [ended]
        · rename_i more
          rw [more]
          exact marked h
      rw [count_hyphen_dropWhile] at short
      simpa using short
  · dsimp only at h
    split at h
    · cases h
    · split at h
      · simp
      · exact marked h

theorem count_hyphen_of_float? {x : Float} (h : float? cs = some x) : cs.count '-' ≤ 2 := by
  obtain ⟨bits, h, -⟩ := Option.map_eq_some_iff.mp h
  have whole := count_hyphen_signed cs
  have word : ∀ {word : List Char}, (signed cs).2.map Char.toLower = word → '-' ∉ word →
      (signed cs).2.count '-' = 0 := by
    rintro _ rfl h
    exact List.count_eq_zero.mpr fun mem => h (List.mem_map_of_mem (f := Char.toLower) mem)
  suffices (signed cs).2.count '-' ≤ 1 by omega
  unfold binary? at h
  dsimp only at h
  split at h
  · exact count_hyphen_of_scientific? ‹_›
  · split at h
    · rename_i named
      rcases named with named | named <;> simp [word named (by decide)]
    · split at h
      · simp [word ‹_› (by decide)]
      · cases h

end Read

namespace Guid

theorem hexDigits_succ (count n : Nat) :
    hexDigits (count + 1) n = Nat.digitChar (n / 16 ^ count % 16) :: hexDigits count n := by
  simp [hexDigits, List.range_succ]

theorem length_hexDigits (count n : Nat) : (hexDigits count n).length = count := by
  simp [hexDigits]

private theorem digitChar_facts : ∀ d < 16,
    Nat.digitChar d ∈ "0123456789abcdef".toList ∧ digitValue (Nat.digitChar d) = d := by
  decide

theorem mem_hexDigits {count n : Nat} :
    ∀ c ∈ hexDigits count n, c ∈ "0123456789abcdef".toList := by
  intro c hc
  obtain ⟨i, -, rfl⟩ := List.mem_map.mp hc
  exact (digitChar_facts _ (Nat.mod_lt _ (by decide))).1

theorem natOfHex_hexDigits (count n : Nat) : natOfHex (hexDigits count n) = n % 16 ^ count := by
  have from_ : ∀ start, (hexDigits count n).foldl (fun n c => 16 * n + digitValue c) start =
      start * 16 ^ count + n % 16 ^ count := by
    induction count with
    | zero => simp [hexDigits, Nat.mod_one]
    | succ count ih =>
        intro start
        have digit := (digitChar_facts (n / 16 ^ count % 16) (Nat.mod_lt _ (by decide))).2
        rw [hexDigits_succ, List.foldl_cons, ih, digit, Nat.pow_succ, Nat.mod_mul]
        ring
  simpa [natOfHex] using from_ 0

/-- Groups come apart as they were put together. -/
theorem ungroup?_hyphenate {groups : List Nat} {digits : List Char}
    (h : digits.length = groups.sum) : ungroup? (hyphenate digits groups) groups = some digits := by
  induction digits, groups using hyphenate.induct with
  | case1 digits => simp_all [hyphenate, ungroup?]
  | case2 digits n => simp_all [hyphenate, ungroup?, List.take_of_length_le]
  | case3 digits n rest _ ih =>
      simp only [List.sum_cons] at h
      have first : (digits.take n).length = n := by
        rw [List.length_take]
        omega
      have later := ih (by rw [List.length_drop]; omega)
      have after : (digits.take n ++ '-' :: hyphenate (digits.drop n) rest).drop n =
          '-' :: hyphenate (digits.drop n) rest := List.drop_left' first
      have before : (digits.take n ++ '-' :: hyphenate (digits.drop n) rest).take n =
          digits.take n := List.take_left' first
      simp only [hyphenate, ungroup?, after, before, later]
      simp

theorem count_hyphenate (digits : List Char) (groups : List Nat) :
    groups.length ≤ (hyphenate digits groups).count '-' + 1 := by
  induction digits, groups using hyphenate.induct with
  | case1 digits | case2 digits n => simp
  | case3 digits n rest _ ih =>
      simp only [hyphenate, List.count_append, List.count_cons_self, List.length_cons]
      omega

theorem mem_hyphenate {digits : List Char} {groups : List Nat} :
    ∀ c ∈ hyphenate digits groups, c ∈ digits ∨ c = '-' := by
  induction digits, groups using hyphenate.induct with
  | case1 digits => simp [hyphenate]
  | case2 digits n => exact fun c hc => .inl (List.mem_of_mem_take hc)
  | case3 digits n rest _ ih =>
      intro c hc
      simp only [hyphenate, List.mem_append, List.mem_cons] at hc
      rcases hc with hc | rfl | hc
      · exact .inl (List.mem_of_mem_take hc)
      · exact .inr rfl
      · exact (ih c hc).imp_left List.mem_of_mem_drop

variable {g : Guid}

theorem mem_toText : ∀ c ∈ g.toText.toList, c ∈ "0123456789abcdef-".toList := by
  have all : "0123456789abcdef-".toList = "0123456789abcdef".toList ++ ['-'] := by decide
  intro c hc
  rw [toText, String.toList_ofList] at hc
  rw [all, List.mem_append, List.mem_singleton]
  exact (mem_hyphenate c hc).imp_left (mem_hexDigits c)

/-- There are four hyphens between the five groups. -/
theorem count_groups (digits : List Char) : 4 ≤ (hyphenate digits groups).count '-' := by
  have groups := count_hyphenate digits groups
  simp only [Guid.groups, List.length_cons, List.length_nil] at groups ⊢
  omega

theorem count_toText : 4 ≤ g.toText.toList.count '-' := by
  rw [toText, String.toList_ofList]
  exact count_groups _

theorem ofDigits?_of_mem {c : Char} {cs : List Char} (hc : c ∈ cs)
    (h : Text.isHexDigit c = false) : ofDigits? cs = none := by
  refine if_neg fun all => ?_
  rw [Bool.and_eq_true, List.all_eq_true] at all
  cases h.symm.trans (all.2 c hc)

theorem ofHyphenated?_toText : ofHyphenated? g.toText.toList = some g := by
  have digits : hexDigits 32 g.bits |>.all Text.isHexDigit := by
    rw [List.all_eq_true]
    intro c hc
    have hex : "0123456789abcdef".toList.all Text.isHexDigit := by decide
    exact List.all_eq_true.mp hex c (mem_hexDigits c hc)
  have bits : ofNat (natOfHex (hexDigits 32 g.bits)) = g := by
    have small := g.bits_lt
    rw [natOfHex_hexDigits, ofNat]
    congr 1
    omega
  have length : (hexDigits 32 g.bits).length = groups.sum := length_hexDigits 32 _
  rw [toText, String.toList_ofList, ofHyphenated?, ungroup?_hyphenate length]
  simp [ofDigits?, digits, bits, length_hexDigits]

end Guid

namespace Json

variable {g : Guid}

/-- A text of these characters has no blanks, no separators, and is not the name of a number. -/
private theorem guid_plain :
    ∀ c ∈ "0123456789abcdef-".toList, Text.isWhiteSpace c = false ∧ c ≠ ',' ∧ c ≠ 'N' ∧ c ≠ 'I' ∧
      c ≠ '(' ∧ c ≠ '\x7b' := by
  have all : "0123456789abcdef-".toList.all fun c => !Text.isWhiteSpace c &&
      (c != ',' && (c != 'N' && (c != 'I' && (c != '(' && c != '\x7b')))) := by decide
  simpa only [List.all_eq_true, Bool.and_eq_true, Bool.not_eq_true', bne_iff_ne] using all

/-- With four hyphens, an identifier is not a number. -/
theorem leafFloat?_guid : leafFloat? g.toText = none := by
  have plain := fun c hc => guid_plain c (Guid.mem_toText (g := g) c hc)
  have named := namedNumber?_of_notMem (fun mem => (plain _ mem).2.2.1 rfl)
    (fun mem => (plain _ mem).2.2.2.1 rfl)
  have separated := withoutSeparators?_of_notMem fun mem => (plain _ mem).2.1 rfl
  have unread : Read.float? g.toText.toList = none := by
    rw [Option.eq_none_iff_forall_ne_some]
    intro x hx
    have few := Read.count_hyphen_of_float? hx
    have many := g.count_toText
    omega
  simp only [leafFloat?, Text.trimChars_of_not_blank fun c hc => (plain c hc).1, separated, named]
  change (if (g.toText.toList.any Text.isDigit && g.toText.toList.all isNumeral) then
    Read.float? g.toText.toList else none) = none
  rw [unread, ite_self]

theorem leafGuid?_guid : leafGuid? g.toText = some g := by
  have plain := fun c hc => guid_plain c (Guid.mem_toText (g := g) c hc)
  have undivided : Guid.ofDigits? g.toText.toList = none := by
    have hyphen : '-' ∈ g.toText.toList := by
      rw [← List.count_pos_iff]
      have many := g.count_toText
      omega
    exact Guid.ofDigits?_of_mem hyphen rfl
  simp only [leafGuid?, Text.trimChars_of_not_blank fun c hc => (plain c hc).1]
  split
  · rename_i inner text
    exact absurd rfl (plain '(' (by simp [text])).2.2.2.2.1
  · rename_i inner text
    exact absurd rfl (plain '\x7b' (by simp [text])).2.2.2.2.2
  · rename_i inner text
    exact absurd rfl (plain '\x7b' (by simp [text])).2.2.2.2.2
  · simp [undivided, Guid.ofHyphenated?_toText]

end Json
end TypedExpr
