import TypedExpr.Proofs.NumberLeaves
import TypedExpr.Ty.Name
import Mathlib.Data.List.Nodup

/-! # Names of types read back

The text of a type that has a name is read as this type, with its letters in any case and with
blanks around the name and behind each suffix. No other text is read as a type.
-/

namespace TypedExpr

/-! ## Letters in another case -/

namespace Text

variable {c d : Char}

/-- Only letters have another case, and that is a letter again. -/
theorem toLower_cases (c : Char) : c.toLower = c ∨ c.isAlphanum ∧ c.toLower.isAlphanum := by
  by_cases capital : 65 ≤ c.toNat ∧ c.toNat ≤ 90
  · obtain ⟨low, high⟩ := capital
    rw [← Char.ofNat_toNat c]
    generalize c.toNat = n at low high
    interval_cases n <;> decide
  · exact .inl (dif_neg capital)

theorem isAlphanum_toLower (c : Char) : c.toLower.isAlphanum = c.isAlphanum := by
  rcases toLower_cases c with same | ⟨letter, small⟩
  · rw [same]
  · rw [letter, small]

/-- What is neither a letter nor a digit is no other character in another case. -/
theorem eq_of_toLower (other : d.isAlphanum = false) (same : c.toLower = d.toLower) : c = d := by
  rcases toLower_cases d with fixed | ⟨letter, -⟩
  · rcases toLower_cases c with fixed' | ⟨letter, -⟩
    · rwa [fixed, fixed'] at same
    · rw [← isAlphanum_toLower, same, isAlphanum_toLower, other] at letter
      cases letter
  · rw [other] at letter
    cases letter

theorem eq_of_map_toLower {cs ds : List Char} (other : ∀ d ∈ ds, d.isAlphanum = false)
    (same : cs.map Char.toLower = ds.map Char.toLower) : cs = ds := by
  induction ds generalizing cs with
  | nil => exact List.map_eq_nil_iff.mp same
  | cons d ds ih =>
      obtain ⟨c, cs, rfl, here, later⟩ := List.map_eq_cons_iff.mp same
      obtain ⟨first, other⟩ := List.forall_mem_cons.mp other
      rw [eq_of_toLower first here, ih other later]

end Text

/-! ## Predefined names -/

namespace Predefined

/-- No two names differ only in case, so that each is read as the type that it belongs to. -/
theorem ofName?_iff {p : Predefined} {name : String} :
    ofName? name = some p ↔ Text.sameIgnoringCase p.name name := by
  have distinct : (all.map fun p => p.name.toList.map Char.toLower).Nodup := by decide
  have known : p ∈ all := by
    cases p with
    | integer k => cases k <;> decide
    | _ => decide
  constructor
  · intro found
    exact List.find?_some (p := fun q : Predefined => Text.sameIgnoringCase q.name name) found
  · intro same
    cases found : ofName? name with
    | none => exact absurd same (by simpa using List.find?_eq_none.mp found p known)
    | some q =>
        have same' : Text.sameIgnoringCase q.name name :=
          List.find?_some (p := fun q : Predefined => Text.sameIgnoringCase q.name name) found
        rw [Text.sameIgnoringCase_iff] at same same'
        rw [List.inj_on_of_nodup_map distinct (List.mem_of_find?_eq_some found) known
          (same'.trans same.symm)]

/-- A name is made of letters and digits, and opens with one. -/
theorem name_alphanum (p : Predefined) :
    p.name.toList ≠ [] ∧ ∀ c ∈ p.name.toList, c.isAlphanum := by
  have checked : p.name.toList ≠ [] ∧ p.name.toList.all Char.isAlphanum := by
    cases p with
    | integer k => cases k <;> decide
    | _ => decide
  exact ⟨checked.1, List.all_eq_true.mp checked.2⟩

end Predefined

namespace Ty

/-- The types that have a name: the predefined ones, arrays of types that have one, and with null
those of them whose values are no references. -/
inductive IsNamed : Ty → Prop where
  | predefined (p : Predefined) : IsNamed (.predefined p)
  | array {t} (h : IsNamed t) : IsNamed (.array t)
  | nullable {t} (h : IsNamed t) (values : t.isValueType) (plain : t.isNullable = false) :
      IsNamed (.nullable t)

/-- What stands behind the name of a type for its arrays, and for its values with null. -/
def suffixes : List (List Char) := [['[', ']'], ['?']]

/-- The first text is the second one written otherwise: the name with its letters in any case, and
with blanks around the name and behind each suffix. -/
inductive Respells : (text display : List Char) → Prop where
  | name {before word after name} (blank : ∀ c ∈ before, Text.isWhiteSpace c)
      (blank' : ∀ c ∈ after, Text.isWhiteSpace c) (plain : ∀ c ∈ name, c.isAlphanum)
      (same : word.map Char.toLower = name.map Char.toLower) :
      Respells (before ++ (word ++ after)) name
  | suffix {text display suffix after} (h : Respells text display) (hs : suffix ∈ suffixes)
      (blank : ∀ c ∈ after, Text.isWhiteSpace c) :
      Respells (text ++ (suffix ++ after)) (display ++ suffix)

variable {t : Ty} {text display blanks word : List Char}

/-- Blanks at the end do not count. -/
theorem Respells.followedBy (h : Respells text display)
    (blank : ∀ c ∈ blanks, Text.isWhiteSpace c) : Respells (text ++ blanks) display := by
  cases h with
  | @name before word after name front back plain same =>
      rw [List.append_assoc, List.append_assoc]
      refine .name front ?_ plain same
      exact List.forall_mem_append.mpr ⟨back, blank⟩
  | @suffix text display suffix after h hs back =>
      rw [List.append_assoc, List.append_assoc]
      exact .suffix h hs (List.forall_mem_append.mpr ⟨back, blank⟩)

theorem Respells.lastSuffix {suffix : List Char} (h : Respells text display)
    (hs : suffix ∈ suffixes) : Respells (text ++ suffix) (display ++ suffix) := by
  have behind : Respells (text ++ (suffix ++ [])) (display ++ suffix) := h.suffix hs nofun
  rwa [List.append_nil] at behind

/-! ## From the end of a text -/

/-- Another character than those that suffixes end with is a blank or the last one of a name. -/
theorem ofReversedText?_other {c : Char} (bracket : c ≠ ']') (mark : c ≠ '?') (rest : List Char) :
    ofReversedText? (c :: rest) = if Text.isWhiteSpace c then ofReversedText? rest else
      (Predefined.ofName? (Text.trim (String.ofList (c :: rest).reverse))).map predefined :=
  ofReversedText?.eq_4 c rest (fun _ same _ => bracket same) mark

theorem ofReversedText?_blanks (blank : ∀ c ∈ blanks, Text.isWhiteSpace c) (rest : List Char) :
    ofReversedText? (blanks ++ rest) = ofReversedText? rest := by
  induction blanks with
  | nil => rfl
  | cons c blanks ih =>
      obtain ⟨here, blank⟩ := List.forall_mem_cons.mp blank
      have visible : ∀ d, Text.isWhiteSpace d = false → c ≠ d := by
        rintro d visible rfl
        simp [here] at visible
      rw [List.cons_append, ofReversedText?_other (visible _ (by decide)) (visible _ (by decide)),
        if_pos here, ih blank]

/-- A suffix is read off the end of a text. -/
theorem ofReversedText?_suffix (t : Ty) :
    (∀ cs, ofReversedText? cs = some t → ofReversedText? ([']', '['] ++ cs) = some (.array t)) ∧
      ∀ cs, ofReversedText? cs = some t → t.isValueType → t.isNullable = false →
        ofReversedText? (['?'] ++ cs) = some (.nullable t) := by
  refine ⟨fun cs read => ?_, fun cs read values plain => ?_⟩
  · show (ofReversedText? cs).map array = _
    rw [read]
    rfl
  · show (ofReversedText? cs >>= fun inner =>
      if inner.isValueType && !inner.isNullable then some (nullable inner) else none) = _
    simp [read, values, plain]

theorem toList_toText_array (t : Ty) : (array t).toText.toList = t.toText.toList ++ ['[', ']'] := by
  simp [toText]

theorem toList_toText_nullable (t : Ty) :
    (nullable t).toText.toList = t.toText.toList ++ ['?'] := by
  simp [toText]

/-- A letter or digit in another case is neither a blank nor the end of a suffix. -/
theorem visible_of_toLower {c d : Char} (plain : d.isAlphanum) (same : c.toLower = d.toLower) :
    Text.isWhiteSpace c = false ∧ c ≠ ']' ∧ c ≠ '?' := by
  rw [← Text.isAlphanum_toLower, ← same, Text.isAlphanum_toLower] at plain
  refine ⟨?_, ?_, ?_⟩
  · have all : Text.blankCodes.all fun n => !(Char.ofNat n).isAlphanum := by decide
    cases blank : Text.isWhiteSpace c with
    | false => rfl
    | true =>
        have other := List.all_eq_true.mp all _ (Text.mem_blankCodes blank)
        simp [Char.ofNat_toNat, plain] at other
  · rintro rfl
    cases plain
  · rintro rfl
    cases plain

/-- A name is read with its letters in any case, and with blanks before it. -/
theorem ofReversedText?_name {p : Predefined} (blank : ∀ c ∈ blanks, Text.isWhiteSpace c)
    (letters : word.map Char.toLower = p.name.toList.map Char.toLower) :
    ofReversedText? (blanks ++ word).reverse = some (.predefined p) := by
  obtain ⟨opened, plain⟩ := p.name_alphanum
  have visible : ∀ c ∈ word, Text.isWhiteSpace c = false ∧ c ≠ ']' ∧ c ≠ '?' := by
    intro c hc
    have lower : c.toLower ∈ p.name.toList.map Char.toLower := letters ▸ List.mem_map_of_mem hc
    obtain ⟨d, hd, same⟩ := List.mem_map.mp lower
    exact visible_of_toLower (plain d hd) same.symm
  have trimmed : Text.trimChars (blanks ++ word) = word := by
    have nothing : ∀ c ∈ ([] : List Char), Text.isWhiteSpace c := nofun
    have padded := Text.trimChars_padded blank nothing word
    rw [List.append_nil] at padded
    exact padded.trans (Text.trimChars_of_not_blank fun c hc => (visible c hc).1)
  have found : Predefined.ofName? (String.ofList word) = some p := by
    rw [Predefined.ofName?_iff, Text.sameIgnoringCase_iff, String.toList_ofList, letters]
  have nonempty : word.reverse ≠ [] := by
    intro none
    rw [List.reverse_eq_nil_iff.mp none] at letters
    exact opened (List.map_eq_nil_iff.mp letters.symm)
  obtain ⟨c, rest, last⟩ := List.exists_cons_of_ne_nil nonempty
  obtain ⟨ink, bracket, mark⟩ := visible c (List.mem_reverse.mp (last ▸ List.mem_cons_self))
  have whole : (blanks ++ word).reverse = c :: (rest ++ blanks.reverse) := by
    rw [List.reverse_append, last, List.cons_append]
  rw [whole, ofReversedText?_other bracket mark, if_neg (by simp [ink]), ← whole,
    List.reverse_reverse, Text.trim, String.toList_ofList, trimmed, found]
  rfl

/-- The text of a type that has a name is read as the type, however it is written. -/
theorem Respells.read (h : Respells text display) (named : t.IsNamed)
    (same : t.toText.toList = display) : ofReversedText? text.reverse = some t := by
  induction h generalizing t with
  | @name before word after name front back plain letters =>
      have noSuffix : ∀ c : Char, c.isAlphanum = false → c ∉ t.toText.toList := by
        intro c other mem
        have letter := plain c (same ▸ mem)
        simp [other] at letter
      cases named with
      | predefined p =>
          rw [← List.append_assoc, List.reverse_append,
            ofReversedText?_blanks (by simpa using back)]
          exact ofReversedText?_name front (letters.trans (congrArg _ same.symm))
      | array => exact absurd (by simp [toList_toText_array]) (noSuffix ']' (by decide))
      | nullable => exact absurd (by simp [toList_toText_nullable]) (noSuffix '?' (by decide))
  | @suffix text display suffix after h hs blank ih =>
      rw [List.reverse_append, List.reverse_append, List.append_assoc,
        ofReversedText?_blanks (by simpa using blank)]
      simp only [suffixes, List.mem_cons, List.not_mem_nil, or_false] at hs
      cases named with
      | predefined p =>
          have plain : ∀ c ∈ suffix, c.isAlphanum := by
            intro c hc
            refine p.name_alphanum.2 c ?_
            show c ∈ (predefined p).toText.toList
            exact same ▸ List.mem_append_right display hc
          rcases hs with rfl | rfl
          · exact absurd (plain '[' (by decide)) (by decide)
          · exact absurd (plain '?' (by decide)) (by decide)
      | @array inner named =>
          rw [toList_toText_array] at same
          rcases hs with rfl | rfl
          · exact (ofReversedText?_suffix inner).1 _ (ih named (List.append_cancel_right same))
          · exact absurd (congrArg List.getLast? same) (by simp)
      | @nullable inner named values plain =>
          rw [toList_toText_nullable] at same
          rcases hs with rfl | rfl
          · exact absurd (congrArg List.getLast? same) (by simp)
          · exact (ofReversedText?_suffix inner).2 _ (ih named (List.append_cancel_right same))
              values plain

theorem respells_of_ofReversedText? {cs : List Char} (h : ofReversedText? cs = some t) :
    t.IsNamed ∧ Respells cs.reverse t.toText.toList := by
  fun_induction ofReversedText? cs generalizing t with
  | case1 => cases h
  | case2 rest ih =>
      obtain ⟨inner, read, rfl⟩ := Option.map_eq_some_iff.mp h
      obtain ⟨named, spelled⟩ := ih read
      refine ⟨.array named, ?_⟩
      rw [toList_toText_array, List.reverse_cons, List.reverse_cons, List.append_assoc]
      exact spelled.lastSuffix (by decide)
  | case3 rest ih =>
      obtain ⟨inner, read, kept⟩ := Option.bind_eq_some_iff.mp h
      split at kept
      · rename_i plain
        cases kept
        obtain ⟨values, plain⟩ := by simpa using plain
        obtain ⟨named, spelled⟩ := ih read
        refine ⟨.nullable named values plain, ?_⟩
        rw [toList_toText_nullable, List.reverse_cons]
        exact spelled.lastSuffix (by decide)
      · cases kept
  | case4 c rest _ _ blank ih =>
      obtain ⟨named, spelled⟩ := ih h
      refine ⟨named, ?_⟩
      rw [List.reverse_cons]
      exact spelled.followedBy (by simpa using blank)
  | case5 c rest _ _ visible =>
      obtain ⟨p, found, rfl⟩ := Option.map_eq_some_iff.mp h
      refine ⟨.predefined p, ?_⟩
      have same := Text.sameIgnoringCase_iff.mp (Predefined.ofName?_iff.mp found)
      rw [Text.trim, String.toList_ofList, String.toList_ofList] at same
      obtain ⟨front, back, split, blank, blank'⟩ := Text.exists_trimChars (c :: rest).reverse
      rw [split]
      exact .name blank blank' p.name_alphanum.2 same.symm

/-! ## Whole texts -/

/-- In other cases a suffix is the same. -/
theorem suffix_kept {suffix : List Char} (hs : suffix ∈ suffixes)
    (same : text.map Char.toLower = (display ++ suffix).map Char.toLower) :
    ∃ front, text = front ++ suffix ∧ front.map Char.toLower = display.map Char.toLower := by
  rw [List.map_append] at same
  obtain ⟨front, back, rfl, before, behind⟩ := List.map_eq_append_iff.mp same
  have other : ∀ c ∈ suffix, c.isAlphanum = false := by
    simp only [suffixes, List.mem_cons, List.not_mem_nil, or_false] at hs
    rcases hs with rfl | rfl <;> exact List.forall_iff_forall_mem.mp (by decide)
  exact ⟨front, by rw [Text.eq_of_map_toLower other behind], before⟩

/-- Letters in another case are another spelling. -/
theorem IsNamed.respells (named : t.IsNamed)
    (same : text.map Char.toLower = t.toText.toList.map Char.toLower) :
    Respells text t.toText.toList := by
  induction named generalizing text with
  | predefined p =>
      have spelled : Respells ([] ++ (text ++ [])) p.name.toList :=
        .name nofun nofun p.name_alphanum.2 same
      rwa [List.nil_append, List.append_nil] at spelled
  | array _ ih =>
      rw [toList_toText_array] at same ⊢
      obtain ⟨front, split, before⟩ := suffix_kept (by decide) same
      rw [split]
      exact .lastSuffix (ih before) (by decide)
  | nullable _ values plain ih =>
      rw [toList_toText_nullable] at same ⊢
      obtain ⟨front, split, before⟩ := suffix_kept (by decide) same
      rw [split]
      exact .lastSuffix (ih before) (by decide)

/-- The text of a type that has a name is read as the type, also with its letters in other cases.
The texts that are read as a type are just those that spell its own text otherwise, and the type is
one that has a name. -/
theorem names_read_back (t : Ty) :
    (t.IsNamed → ofText? t.toText = some t ∧
      ∀ s, Text.sameIgnoringCase s t.toText → ofText? s = some t) ∧
    ∀ s, ofText? s = some t ↔ t.IsNamed ∧ Respells s.toList t.toText.toList := by
  have spelled : ∀ s, ofText? s = some t ↔ t.IsNamed ∧ Respells s.toList t.toText.toList := by
    intro s
    constructor
    · intro read
      simpa using respells_of_ofReversedText? read
    · rintro ⟨named, spells⟩
      exact spells.read named rfl
  refine ⟨fun named => ?_, spelled⟩
  have cased : ∀ s, Text.sameIgnoringCase s t.toText → ofText? s = some t := fun s same =>
    (spelled s).mpr ⟨named, named.respells (Text.sameIgnoringCase_iff.mp same)⟩
  exact ⟨cased _ (Text.sameIgnoringCase_iff.mpr rfl), cased⟩

/-- Blanks stand around the name and behind each suffix, also such as are not ASCII. -/
theorem names_read_back_blanks :
    let t : Ty := .array (.array (.nullable .int32))
    t.IsNamed ∧ ofText? "Int32?[][]" = some t ∧ ofText? "iNT32?[][]" = some t ∧
      ofText? "\t iNT32 ?[]\n[] \u00a0" = some t := by
  intro t
  have named : t.IsNamed := .array (.array (.nullable (.predefined _) rfl rfl))
  obtain ⟨reads, spelled⟩ := names_read_back t
  obtain ⟨own, cased⟩ := reads named
  refine ⟨named, own, cased _ (by decide), (spelled _).mpr ⟨named, ?_⟩⟩
  rw [toList_toText_array, toList_toText_array, toList_toText_nullable]
  have blank {cs : List Char} (h : cs.all Text.isWhiteSpace) : ∀ c ∈ cs, Text.isWhiteSpace c :=
    List.all_eq_true.mp h
  have name : Respells (['\t', ' '] ++ ("iNT32".toList ++ [' '])) "Int32".toList :=
    .name (blank rfl) (blank rfl) (Predefined.name_alphanum (.integer .int32)).2 rfl
  have mark : Respells ("\t iNT32 ".toList ++ (['?'] ++ [])) _ := name.suffix (by decide) nofun
  have inner : Respells ("\t iNT32 ?".toList ++ (['[', ']'] ++ ['\n'])) _ :=
    mark.suffix (by decide) (blank rfl)
  have outer : Respells ("\t iNT32 ?[]\n".toList ++ (['[', ']'] ++ [' ', '\u00a0'])) _ :=
    inner.suffix (by decide) (blank rfl)
  exact outer

end Ty
end TypedExpr
