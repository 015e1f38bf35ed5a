import TypedExpr.Proofs.NumberLeaves
import TypedExpr.Proofs.Pieces

/-! # Forms of identifiers

An identifier is written in five forms: its digits, these in groups, the groups in braces or in
parentheses, and fields with a mark before each of them. A leaf in any of them is this identifier,
whatever the case of its digits and the blanks around it. Only digits that stand alone can be taken
for a number.
-/

namespace TypedExpr

/-! ## Digits in either case -/

namespace Guid

variable {c : Char} {cs ds high low : List Char} {g : Guid}

/-- The digits of identifiers in both cases. -/
def digits : List Char := "0123456789abcdefABCDEF".toList

theorem mem_digits_of_toLower (h : c.toLower ∈ digits) : c ∈ digits := by
  by_cases capital : 65 ≤ c.toNat ∧ c.toNat ≤ 90
  · obtain ⟨low, high⟩ := capital
    rw [← Char.ofNat_toNat c] at h ⊢
    generalize c.toNat = n at low high h
    interval_cases n <;> revert h <;> decide
  · have small : c.toLower = c := dif_neg capital
    rwa [small] at h

/-- A digit has its value in either case, and is none of the marks around digits. -/
theorem digit_facts : ∀ c ∈ digits, Text.isHexDigit c ∧ digitValue c.toLower = digitValue c ∧
    Text.isWhiteSpace c = false ∧ c ∉ [',', '(', '\x7b', '\x7d', '-', 'x', 'X', 'N', 'I'] :=
  List.forall_iff_forall_mem.mp (by decide)

/-- The text is the digits of the identifier, each of them in either case. -/
def Spells (ds : List Char) (g : Guid) : Prop := ds.map Char.toLower = hexDigits 32 g.bits

instance : Decidable (Spells ds g) := inferInstanceAs (Decidable (_ = _))

theorem Spells.mem (h : Spells ds g) : ∀ c ∈ ds, c ∈ digits := by
  intro c hc
  have lower : c.toLower ∈ hexDigits 32 g.bits := by
    rw [← h]
    exact List.mem_map_of_mem hc
  have all : "0123456789abcdef".toList.all (· ∈ digits) := by decide
  exact mem_digits_of_toLower (by simpa using List.all_eq_true.mp all _ (mem_hexDigits _ lower))

theorem Spells.length (h : Spells ds g) : ds.length = 32 := by
  rw [← List.length_map Char.toLower, h, length_hexDigits]

theorem natOfHex_map_toLower (h : ∀ c ∈ ds, c ∈ digits) :
    natOfHex (ds.map Char.toLower) = natOfHex ds := by
  rw [natOfHex, List.foldl_map]
  exact List.foldl_ext _ _ _ fun n c hc => by rw [(digit_facts c (h c hc)).2.1]

theorem Spells.natOfHex (h : Spells ds g) : natOfHex ds = g.bits := by
  rw [← natOfHex_map_toLower h.mem, h, natOfHex_hexDigits]
  exact Nat.mod_eq_of_lt g.bits_lt

theorem natOfHex_append (high low : List Char) :
    Guid.natOfHex (high ++ low) = Guid.natOfHex high * 16 ^ low.length + Guid.natOfHex low := by
  have from_ : ∀ start, low.foldl (fun n c => 16 * n + digitValue c) start =
      start * 16 ^ low.length + Guid.natOfHex low := by
    induction low with
    | nil => simp [Guid.natOfHex]
    | cons c low ih =>
        intro start
        have value : Guid.natOfHex (c :: low) =
            (16 * 0 + digitValue c) * 16 ^ low.length + Guid.natOfHex low := ih _
        rw [List.foldl_cons, ih, value, List.length_cons]
        ring
  rw [Guid.natOfHex, List.foldl_append, from_]
  rfl

theorem Spells.ofNat (h : Spells ds g) : ofNat (Guid.natOfHex ds) = g := by
  have small := g.bits_lt
  rw [h.natOfHex, Guid.ofNat]
  congr 1
  omega

theorem Spells.ofDigits? (h : Spells ds g) : ofDigits? ds = some g := by
  have hex : ds.all Text.isHexDigit :=
    List.all_eq_true.mpr fun c hc => (digit_facts c (h.mem c hc)).1
  simp [Guid.ofDigits?, h.length, hex, h.ofNat]

theorem Spells.ofHyphenated? (h : Spells ds g) : ofHyphenated? (hyphenate ds groups) = some g := by
  rw [Guid.ofHyphenated?, ungroup?_hyphenate h.length]
  exact h.ofDigits?

/-- What is no digit cannot stand before the digits. -/
theorem ofHyphenated?_cons (h : Text.isHexDigit c = false) :
    Guid.ofHyphenated? (c :: cs) = none := by
  rw [Guid.ofHyphenated?, groups, ungroup?]
  split
  · rw [Option.bind_map, Option.bind_eq_none_iff]
    exact fun rest _ => ofDigits?_of_mem List.mem_cons_self h
  · rfl
  · exact List.cons_ne_nil _ _

end Guid

/-! ## Fields -/

namespace Text

variable {word cs head tail : List Char}

theorem dropHead?_append (word cs : List Char) : dropHead? word (word ++ cs) = some cs := by
  induction word with
  | nil => cases cs <;> rfl
  | cons c word ih => simp [dropHead?, ih]

theorem dropTail?_append (cs word : List Char) : dropTail? word (cs ++ word) = some cs := by
  rw [dropTail?, List.reverse_append, dropHead?_append]
  simp

end Text

namespace Guid

theorem between?_append (opening cs closing : List Char) :
    between? opening closing (opening ++ (cs ++ closing)) = some cs := by
  rw [between?, Text.dropHead?_append]
  exact Text.dropTail?_append cs closing

end Guid

namespace Json

open Guid (Spells digits)

/-- The ways to write an identifier. -/
inductive GuidForm where
  | digits
  | hyphenated
  | braced
  | parenthesized
  | fields
  deriving DecidableEq

variable {g : Guid} {form : GuidForm} {c : Char} {cs ds head tail high low front back : List Char}
  {widths : List Nat} {text : String}

/-- The marks of a field. -/
def fieldMarks : List (List Char) := [['0', 'x'], ['0', 'X']]

/-- The digits in fields of these widths, each field behind a mark. A comma stands between two
fields, perhaps with blanks behind it. -/
inductive Fields : List Nat → List Char → List Char → Prop where
  | last {mark ds} (hm : mark ∈ fieldMarks) : Fields [ds.length] ds (mark ++ ds)
  | more {mark ds blanks widths ds' cs} (hm : mark ∈ fieldMarks)
      (blank : ∀ c ∈ blanks, Text.isWhiteSpace c) (rest : Fields widths ds' cs) :
      Fields (ds.length :: widths) (ds ++ ds') (mark ++ ds ++ ',' :: (blanks ++ cs))

theorem Fields.opens (h : Fields widths ds cs) :
    ∃ mark ∈ fieldMarks, ∃ rest, cs = mark ++ rest := by
  cases h with
  | last hm => exact ⟨_, hm, _, rfl⟩
  | more hm => exact ⟨_, hm, _, List.append_assoc _ _ _⟩

theorem Fields.length (h : Fields widths ds cs) : ds.length = widths.sum := by
  induction h with
  | last => simp
  | more _ _ _ ih => simp [ih]

theorem hexField?_marked {mark : List Char} (hm : mark ∈ fieldMarks)
    (hd : ∀ c ∈ ds, c ∈ digits) (nonempty : ds ≠ []) :
    hexField? ds.length (mark ++ ds) = some (Guid.natOfHex ds) := by
  have hex : ∀ c ∈ ds, Text.isHexDigit c := fun c hc => (Guid.digit_facts c (hd c hc)).1
  simp only [fieldMarks, List.mem_cons, List.not_mem_nil, or_false] at hm
  rcases hm with rfl | rfl <;> simp [hexField?, Text.dropHead?, nonempty] <;> exact hex

/-- Neither a mark nor a digit is a blank, a comma or a brace. -/
theorem marked_plain {mark : List Char} (hm : mark ∈ fieldMarks) (hd : ∀ c ∈ ds, c ∈ digits) :
    ∀ c ∈ mark ++ ds, Text.isWhiteSpace c = false ∧ c ≠ ',' ∧ c ≠ '\x7b' := by
  have marks : ∀ mark ∈ fieldMarks, mark.Forall fun c =>
      Text.isWhiteSpace c = false ∧ c ≠ ',' ∧ c ≠ '\x7b' := by decide
  intro c hc
  rcases List.mem_append.mp hc with hc | hc
  · exact List.forall_iff_forall_mem.mp (marks mark hm) c hc
  · obtain ⟨-, -, plain, others⟩ := Guid.digit_facts c (hd c hc)
    simp only [List.mem_cons, not_or] at others
    exact ⟨plain, others.1, others.2.2.1⟩

/-- The text without its blanks. -/
def visible (cs : List Char) : List Char := cs.filter (!Text.isWhiteSpace ·)

@[simp] theorem visible_append (cs ds : List Char) :
    visible (cs ++ ds) = visible cs ++ visible ds :=
  List.filter_append _ _

theorem visible_cons (h : Text.isWhiteSpace c = false) : visible (c :: cs) = c :: visible cs :=
  List.filter_cons_of_pos (by simp [h])

theorem visible_of_blank (h : ∀ c ∈ cs, Text.isWhiteSpace c) : visible cs = [] := by
  simpa [visible] using h

theorem visible_of_plain (h : ∀ c ∈ cs, Text.isWhiteSpace c = false) : visible cs = cs := by
  simpa [visible] using h

/-- Without blanks, fields have no brace among them and are read as the number of their digits. -/
theorem Fields.read (h : Fields widths ds cs) (positive : 0 ∉ widths)
    (hd : ∀ c ∈ ds, c ∈ digits) : '\x7b' ∉ visible cs ∧
      ∀ n, hexFields? widths n (Text.splitAll ',' (visible cs)) =
        some (n * 16 ^ ds.length + Guid.natOfHex ds) := by
  induction h with
  | last hm =>
      rename_i mark ds
      have plain := marked_plain hm hd
      have nonempty : ds ≠ [] := fun none => positive (by simp [none])
      rw [visible_of_plain fun c hc => (plain c hc).1]
      refine ⟨fun brace => (plain _ brace).2.2 rfl, fun n => ?_⟩
      rw [Text.splitAll_of_notMem fun comma => (plain _ comma).2.1 rfl]
      simp [hexFields?, hexField?_marked hm hd nonempty]
  | more hm blank rest ih =>
      rename_i mark ds blanks widths ds' cs
      obtain ⟨some, positive⟩ := not_or.mp (mt List.mem_cons.mpr positive)
      obtain ⟨hd, hd'⟩ := List.forall_mem_append.mp hd
      obtain ⟨noBrace, value⟩ := ih positive hd'
      have plain := marked_plain hm hd
      have nonempty : ds ≠ [] := fun none => some (by simp [none])
      have compact : visible (mark ++ ds ++ ',' :: (blanks ++ cs)) =
          mark ++ ds ++ ',' :: visible cs := by
        rw [visible_append, visible_of_plain fun c hc => (plain c hc).1, visible_cons rfl,
          visible_append, visible_of_blank blank, List.nil_append]
      rw [compact]
      refine ⟨?_, fun n => ?_⟩
      · rw [List.mem_append, List.mem_cons]
        rintro (brace | brace | brace)
        · exact (plain _ brace).2.2 rfl
        · cases brace
        · exact noBrace brace
      · rw [Text.splitAll_append fun comma => (plain _ comma).2.1 rfl]
        simp only [hexFields?, hexField?_marked hm hd nonempty, value, Option.bind_eq_bind,
          Option.bind_some, Guid.natOfHex_append, List.length_append]
        ring_nf

theorem splitAtTail?_append (noBrace : '\x7b' ∉ head) (tail : List Char) :
    splitAtTail? (head ++ ',' :: '\x7b' :: tail) = some (head, tail) := by
  have place : Text.positionOf? [',', '\x7b'] (head ++ ',' :: '\x7b' :: tail) =
      some head.length := by
    induction head with
    | nil => simp [Text.positionOf?]
    | cons c head ih =>
        obtain ⟨-, noBrace⟩ := not_or.mp (mt List.mem_cons.mpr noBrace)
        have elsewhere :
            [',', '\x7b'].isPrefixOf (c :: (head ++ ',' :: '\x7b' :: tail)) = false := by
          cases head with
          | nil => simp [List.isPrefixOf]
          | cons d head =>
              obtain ⟨other, -⟩ := not_or.mp (mt List.mem_cons.mpr noBrace)
              simp [List.isPrefixOf, other]
        simp [Text.positionOf?, elsewhere, ih noBrace]
  rw [splitAtTail?, place]
  simp

/-! ## The five forms -/

/-- The text writes the identifier in this form. -/
inductive Writes (g : Guid) : GuidForm → List Char → Prop where
  | digits {ds : List Char} (h : Spells ds g) : Writes g .digits ds
  | hyphenated {ds : List Char} (h : Spells ds g) :
      Writes g .hyphenated (Guid.hyphenate ds Guid.groups)
  | braced {ds : List Char} (h : Spells ds g) :
      Writes g .braced ('\x7b' :: (Guid.hyphenate ds Guid.groups ++ ['\x7d']))
  | parenthesized {ds : List Char} (h : Spells ds g) :
      Writes g .parenthesized ('(' :: (Guid.hyphenate ds Guid.groups ++ [')']))
  | fields {high low head blanks tail : List Char} (h : Spells (high ++ low) g)
      (hh : Fields [8, 4, 4] high head) (blank : ∀ c ∈ blanks, Text.isWhiteSpace c)
      (hl : Fields (List.replicate 8 2) low tail) :
      Writes g .fields
        ('\x7b' :: (head ++ ',' :: (blanks ++ '\x7b' :: (tail ++ ['\x7d', '\x7d']))))

theorem fieldsGuid?_fields {blanks : List Char} (h : Spells (high ++ low) g)
    (hh : Fields [8, 4, 4] high head) (blank : ∀ c ∈ blanks, Text.isWhiteSpace c)
    (hl : Fields (List.replicate 8 2) low tail) :
    fieldsGuid? ('\x7b' :: (head ++ ',' :: (blanks ++ '\x7b' :: (tail ++ ['\x7d', '\x7d'])))) =
      some g := by
  obtain ⟨dh, dl⟩ := List.forall_mem_append.mp h.mem
  obtain ⟨noBrace, upper⟩ := hh.read (by decide) dh
  obtain ⟨-, lower⟩ := hl.read (by decide) dl
  have compact : visible
      ('\x7b' :: (head ++ ',' :: (blanks ++ '\x7b' :: (tail ++ ['\x7d', '\x7d'])))) =
      ['\x7b'] ++ ((visible head ++ ',' :: '\x7b' :: visible tail) ++ ['\x7d', '\x7d']) := by
    have braces : visible ['\x7d', '\x7d'] = ['\x7d', '\x7d'] := rfl
    rw [visible_cons rfl, visible_append, visible_cons rfl, visible_append, visible_of_blank blank,
      visible_cons rfl, visible_append, braces]
    simp
  have value : Guid.natOfHex high * 2 ^ 64 + Guid.natOfHex low =
      Guid.natOfHex (high ++ low) := by
    have width : low.length = 16 := hl.length
    rw [Guid.natOfHex_append, width]
  unfold fieldsGuid?
  dsimp only
  rw [show List.filter _ _ = _ from compact, Guid.between?_append]
  simp only [Option.bind_eq_bind, Option.bind_some, splitAtTail?_append noBrace, upper, lower,
    Nat.zero_mul, Nat.zero_add, value, h.ofNat]
  rfl

/-- Without parentheses and marks, a text is judged by its digits. -/
theorem leafGuid?_unmarked (trimmed : Text.trimChars text.toList = cs) (paren : '(' ∉ cs)
    (mark : 'x' ∉ cs ∧ 'X' ∉ cs) : leafGuid? text =
      (Guid.ofDigits? cs <|> Guid.ofHyphenated? cs <|>
        (Guid.between? ['\x7b'] ['\x7d'] cs).bind Guid.ofHyphenated?) := by
  rw [leafGuid?, trimmed]
  split
  · simp at paren
  · simp at mark
  · simp at mark
  · rfl

/-- Neither digits nor their groups have brackets or marks among them. -/
theorem foreign_notMem (h : Spells ds g) (hc : c ∈ ['(', '\x7b', 'x', 'X']) :
    c ∉ ds ∧ c ∉ Guid.hyphenate ds Guid.groups := by
  have foreign : ∀ c ∈ ['(', '\x7b', 'x', 'X'], c ∉ digits ∧ c ≠ '-' :=
    List.forall_iff_forall_mem.mp (by decide)
  obtain ⟨noDigit, noHyphen⟩ := foreign c hc
  have absent : c ∉ ds := fun there => noDigit (h.mem c there)
  exact ⟨absent, fun there => (Guid.mem_hyphenate c there).elim absent noHyphen⟩

theorem Writes.read (h : Writes g form cs) (trimmed : Text.trimChars text.toList = cs) :
    leafGuid? text = some g := by
  cases h with
  | digits h =>
      have absent := fun c hc => (foreign_notMem (c := c) h hc).1
      rw [leafGuid?_unmarked trimmed (absent _ (by decide))
        ⟨absent _ (by decide), absent _ (by decide)⟩,
        h.ofDigits?]
      rfl
  | @hyphenated ds h =>
      have absent := fun c hc => (foreign_notMem (c := c) h hc).2
      have hyphens := Guid.count_groups ds
      have grouped : Guid.ofDigits? (Guid.hyphenate ds Guid.groups) = none :=
        Guid.ofDigits?_of_mem (c := '-') (List.count_pos_iff.mp (by omega)) rfl
      rw [leafGuid?_unmarked trimmed (absent _ (by decide))
        ⟨absent _ (by decide), absent _ (by decide)⟩,
        grouped, h.ofHyphenated?]
      rfl
  | @braced ds h =>
      have absent := fun c hc => (foreign_notMem (c := c) h hc).2
      rw [leafGuid?_unmarked trimmed (by simp [absent]) (by simp [absent]),
        Guid.ofDigits?_of_mem List.mem_cons_self rfl, Guid.ofHyphenated?_cons rfl]
      have inside := Guid.between?_append ['\x7b'] (Guid.hyphenate ds Guid.groups) ['\x7d']
      simp only [List.cons_append, List.nil_append] at inside
      rw [inside]
      exact h.ofHyphenated?
  | @parenthesized ds h =>
      rw [leafGuid?, trimmed]
      simp [Text.dropTail?_append, h.ofHyphenated?]
  | fields h hh blank hl =>
      have read := fieldsGuid?_fields h hh blank hl
      obtain ⟨mark, hm, rest, rfl⟩ := hh.opens
      rw [leafGuid?, trimmed]
      simp only [fieldMarks, List.mem_cons, List.not_mem_nil, or_false] at hm
      rcases hm with rfl | rfl <;> exact read

/-- No form begins or ends with a blank. -/
theorem Writes.ends (h : Writes g form cs) :
    (∀ c ∈ cs.head?, Text.isWhiteSpace c = false) ∧
      ∀ c ∈ cs.getLast?, Text.isWhiteSpace c = false := by
  have within {cs : List Char} (plain : ∀ c ∈ cs, c ∈ Guid.digits ∨ c = '-') :
      (∀ c ∈ cs.head?, Text.isWhiteSpace c = false) ∧
        ∀ c ∈ cs.getLast?, Text.isWhiteSpace c = false := by
    have visible : ∀ c ∈ cs, Text.isWhiteSpace c = false := by
      intro c hc
      rcases plain c hc with digit | rfl
      · exact (Guid.digit_facts c digit).2.2.1
      · rfl
    exact ⟨fun c hc => visible c (List.mem_of_mem_head? hc),
      fun c hc => visible c (List.mem_of_getLast? hc)⟩
  have between {first last : Char} {inner : List Char} (hf : Text.isWhiteSpace first = false)
      (hl : Text.isWhiteSpace last = false) :
      (∀ c ∈ (first :: (inner ++ [last])).head?, Text.isWhiteSpace c = false) ∧
        ∀ c ∈ (first :: (inner ++ [last])).getLast?, Text.isWhiteSpace c = false := by
    rw [← List.cons_append, List.getLast?_concat]
    exact ⟨by rintro _ ⟨⟩; exact hf, by rintro _ ⟨⟩; exact hl⟩
  cases h with
  | digits h => exact within fun c hc => .inl (h.mem c hc)
  | hyphenated h => exact within fun c hc => (Guid.mem_hyphenate c hc).imp_left (h.mem c)
  | braced | parenthesized => exact between rfl rfl
  | @fields high low head blanks tail =>
      have closing : head ++ ',' :: (blanks ++ '\x7b' :: (tail ++ ['\x7d', '\x7d'])) =
          head ++ ',' :: (blanks ++ '\x7b' :: (tail ++ ['\x7d'])) ++ ['\x7d'] := by simp
      rw [closing]
      exact between rfl rfl

/-! ## Identifiers and numbers -/

/-- A text with a bracket is not a number. -/
theorem leafFloat?_of_bracket (hc : c ∈ ['(', '\x7b'])
    (there : c ∈ Text.trimChars text.toList) : leafFloat? text = none := by
  rw [← Option.not_isSome_iff_eq_none, leafFloat?_isSome_iff]
  rintro (named | decimal)
  · have names : ['(', '\x7b'].Forall fun c => ∀ name ∈ numberNames, c ∉ name.toList := by decide
    refine List.forall_iff_forall_mem.mp names c hc _ named ?_
    rwa [Text.trim, String.toList_ofList]
  · have foreign : ∀ c ∈ ['(', '\x7b'], isNumeral c = false ∧ (c != ',') = true :=
      List.forall_iff_forall_mem.mp (by decide)
    obtain ⟨noNumeral, kept⟩ := foreign c hc
    have numeral := (NumberText.numerals (withoutSeparators?_grouped decimal).2).1 c
      (List.mem_filter.mpr ⟨there, kept⟩)
    cases noNumeral.symm.trans numeral

/-- A text with more than two hyphens is not a number. -/
theorem leafFloat?_of_hyphens (many : 2 < (Text.trimChars text.toList).count '-') :
    leafFloat? text = none := by
  rw [Option.eq_none_iff_forall_ne_some]
  intro x read
  rcases leafFloat?_isSome_iff.mp (Option.isSome_of_eq_some read) with named | decimal
  · have names : ∀ name ∈ numberNames, name.toList.count '-' ≤ 2 := by decide
    have few := names _ named
    rw [Text.trim, String.toList_ofList] at few
    omega
  · rw [leafFloat?_of_decimal decimal] at read
    have few := Read.count_hyphen_of_float? read
    rw [List.count_filter rfl] at few
    omega

/-- Only digits that stand alone can be taken for a number. -/
theorem Writes.noFloat (h : Writes g form cs) (other : form ≠ .digits)
    (trimmed : Text.trimChars text.toList = cs) : leafFloat? text = none := by
  subst trimmed
  generalize ht : Text.trimChars text.toList = cs at h
  cases h with
  | digits => exact absurd rfl other
  | @hyphenated ds =>
      have hyphens := Guid.count_groups ds
      exact leafFloat?_of_hyphens (by rw [ht]; omega)
  | braced | fields => exact leafFloat?_of_bracket (c := '\x7b') (by decide) (by simp [ht])
  | parenthesized => exact leafFloat?_of_bracket (c := '(') (by decide) (by simp [ht])

/-- An identifier in any of its forms, with blanks around it, is read as this identifier. A leaf is
taken for it as well, but digits that stand alone and are a number are taken for the number. -/
theorem guid_leaves (h : Writes g form cs) (blank : ∀ c ∈ front, Text.isWhiteSpace c)
    (blank' : ∀ c ∈ back, Text.isWhiteSpace c)
    (ht : text = String.ofList (front ++ (cs ++ back))) :
    leafGuid? text = some g ∧
      (form ≠ .digits → inferred (.string text) = (.guid, .guid g)) ∧
      (form = .digits → inferred (.string text) =
        (leafFloat? text).elim (.guid, .guid g) fun x => (.double, .double x)) := by
  have trimmed : Text.trimChars text.toList = cs := by
    rw [ht, String.toList_ofList, Text.trimChars_padded blank blank',
      Text.trimChars_of_ends h.ends.1 h.ends.2]
  have read := h.read trimmed
  have taken : inferred (.string text) =
      (leafFloat? text).elim (.guid, .guid g) fun x => (.double, .double x) := by
    simp only [inferred, leafText?, read]
    cases leafFloat? text <;> rfl
  refine ⟨read, fun other => ?_, fun _ => taken⟩
  rw [taken, h.noFloat other trimmed]
  rfl

/-- Fields with digits of both cases, and blanks behind some of the commas. -/
theorem guid_leaves_fields : ∃ g : Guid, g.toText = "3fa85f64-5717-4562-b3fc-2c963f66afa6" ∧
    inferred (.string
      " \x7b0x3FA85f64, 0x5717, 0x4562, \x7b0xb3,0xFC,0x2c,0x96,0x3f,0x66,0xAF,0xa6\x7d\x7d ") =
      (.guid, .guid g) := by
  have mark : ['0', 'x'] ∈ fieldMarks := by decide
  have space : ∀ c ∈ [' '], Text.isWhiteSpace c := List.all_eq_true.mp (by decide)
  have high : Fields [8, 4, 4] _ _ := @Fields.more _ "3FA85f64".toList _ _ _ _ mark space
    (@Fields.more _ "5717".toList _ _ _ _ mark space (@Fields.last _ "4562".toList mark))
  have byte (ds : List Char) {widths : List Nat} {ds' cs : List Char}
      (rest : Fields widths ds' cs) :=
    @Fields.more _ ds _ _ _ _ mark (List.forall_mem_nil _) rest
  have low : Fields (List.replicate 8 2) _ _ :=
    byte "b3".toList (byte "FC".toList (byte "2c".toList (byte "96".toList (byte "3f".toList
      (byte "66".toList (byte "AF".toList (@Fields.last _ "a6".toList mark)))))))
  refine ⟨Guid.ofNat 0x3fa85f6457174562b3fc2c963f66afa6, by decide, ?_⟩
  refine (guid_leaves (.fields ?_ high space low) space space rfl).2.1 (by decide)
  decide

end Json
end TypedExpr
