import TypedExpr.Proofs.Integer
import TypedExpr.Proofs.MemberCalls

/-! # Positions in texts

All members of texts count characters, from zero. What one of them says of a position, the others
say as well: the first place of a text is the first one at which the part of its length is this
text, and a text is put together again from its parts before and behind a position.
-/

namespace TypedExpr

namespace Text

variable {word s : List Char} {p q : Nat}

/-- The word stands at this place of the text. -/
def OccursAt (word s : List Char) (p : Nat) : Prop := p ≤ s.length ∧ word <+: s.drop p

instance : Decidable (OccursAt word s p) :=
  inferInstanceAs (Decidable (p ≤ s.length ∧ word <+: s.drop p))

theorem occursAt_nil : OccursAt word [] p ↔ word = [] ∧ p = 0 := by
  simp [OccursAt, and_comm]

theorem occursAt_zero : OccursAt word s 0 ↔ word <+: s := by simp [OccursAt]

theorem occursAt_succ {c : Char} : OccursAt word (c :: s) (p + 1) ↔ OccursAt word s p := by
  simp [OccursAt]

theorem dropHead?_isSome : (dropHead? word s).isSome ↔ word <+: s := by
  fun_induction dropHead? word s with
  | case1 => simp
  | case2 => simp
  | case3 c word s ih => simp [ih]
  | case4 c word d s different => simp [different]

/-- The place of a word is the first one at which it stands, if it stands anywhere. -/
theorem positionOf?_eq_some : positionOf? word s = some p ↔
    OccursAt word s p ∧ ∀ q < p, ¬ OccursAt word s q := by
  induction s generalizing p with
  | nil =>
      cases word with
      | nil =>
          constructor
          · rintro ⟨⟩
            exact ⟨occursAt_nil.mpr ⟨rfl, rfl⟩, nofun⟩
          · rintro ⟨start, -⟩
            rw [(occursAt_nil.mp start).2]
            rfl
      | cons => simp [positionOf?, occursAt_nil]
  | cons c s ih =>
      rw [positionOf?]
      split
      · -- no place comes before the start
        rename_i here
        have occurs := occursAt_zero.mpr (List.isPrefixOf_iff_prefix.mp here)
        constructor
        · rintro ⟨⟩
          exact ⟨occurs, nofun⟩
        · rintro ⟨-, first⟩
          cases p with
          | zero => rfl
          | succ p => exact absurd occurs (first 0 (Nat.succ_pos p))
      · -- the places behind the first character are those of the rest, one further
        rename_i elsewhere
        have nowhere : ¬ OccursAt word (c :: s) 0 := fun occurs =>
          elsewhere (List.isPrefixOf_iff_prefix.mpr (occursAt_zero.mp occurs))
        cases p with
        | zero => simp [nowhere]
        | succ p =>
            rw [occursAt_succ, Nat.forall_lt_succ_left]
            simp [occursAt_succ, nowhere, ih]

theorem positionOf?_eq_none : positionOf? word s = none ↔ ∀ p, ¬ OccursAt word s p := by
  constructor
  · intro none p occurs
    -- the least place would have been found
    have first := positionOf?_eq_some.mpr
      ⟨Nat.find_spec ⟨p, occurs⟩, fun q => Nat.find_min ⟨p, occurs⟩⟩
    cases none.symm.trans first
  · intro nowhere
    cases h : positionOf? word s with
    | none => rfl
    | some p => exact absurd (positionOf?_eq_some.mp h).1 (nowhere p)

/-- The outcome of taking a part of a text from a place on: the characters from there on, or an
error if the part is not in the text. -/
inductive PartOf (a : String) (i n : Int) : Outcome Value → Prop where
  | part {r : String} (start : 0 ≤ i) (size : 0 ≤ n) (inside : i + n ≤ a.length)
    (length : r.length = n)
    (chars : ∀ k : Nat, k < n → r.toList[k]? = a.toList[i.toNat + k]?) :
    PartOf a i n (.ok (.string r))
  | outside (h : i < 0 ∨ n < 0 ∨ a.length < i + n) : PartOf a i n (.error .indexOutOfRange)

variable {a b r : String} {i n : Int}

theorem partOf_ok_iff : PartOf a i n (.ok (.string r)) ↔ 0 ≤ i ∧ 0 ≤ n ∧ i + n ≤ a.length ∧
    r.toList = (a.toList.drop i.toNat).take n.toNat := by
  rw [← String.length_toList]
  constructor
  · intro h
    cases h with
    | part start size inside length chars =>
        refine ⟨start, size, inside, List.ext_getElem? fun k => ?_⟩
        rw [← String.length_toList] at length
        rw [List.getElem?_take, List.getElem?_drop]
        split
        · exact chars k (by omega)
        · exact List.getElem?_eq_none (by omega)
  · rintro ⟨start, size, inside, same⟩
    refine .part start size inside ?_ fun k hk => ?_
    · rw [← String.length_toList, same, List.length_take, List.length_drop]
      omega
    · rw [same, List.getElem?_take_of_lt (by omega), List.getElem?_drop]

/-- A part has one outcome. -/
theorem PartOf.unique {outcome outcome' : Outcome Value} (h : PartOf a i n outcome)
    (h' : PartOf a i n outcome') : outcome = outcome' := by
  cases h with
  | part start size inside length chars =>
      cases h' with
      | part start' size' inside' length' chars' =>
          have same := (partOf_ok_iff.mp (.part start size inside length chars)).2.2.2
          have same' := (partOf_ok_iff.mp (.part start' size' inside' length' chars')).2.2.2
          rw [String.toList_inj.mp (same.trans same'.symm)]
      | outside h => omega
  | outside h =>
      cases h' with
      | part => omega
      | outside => rfl

/-- A word stands where the part of its length is the word. -/
theorem partOf_word_iff : PartOf a i b.length (.ok (.string b)) ↔
    0 ≤ i ∧ OccursAt b.toList a.toList i.toNat := by
  rw [partOf_ok_iff, ← String.length_toList, ← String.length_toList, OccursAt,
    List.prefix_iff_eq_take]
  constructor
  · rintro ⟨start, -, inside, same⟩
    exact ⟨start, by omega, same⟩
  · rintro ⟨start, inside, same⟩
    refine ⟨start, by omega, ?_, same⟩
    have length := congrArg List.length same
    rw [List.length_take, List.length_drop] at length
    omega

/-- The first place at which a text stands in another one, or minus one. -/
inductive FirstAt (a b : String) : Int → Prop where
  | found {i : Int} (here : PartOf a i b.length (.ok (.string b)))
    (first : ∀ j < i, ¬ PartOf a j b.length (.ok (.string b))) : FirstAt a b i
  | absent (nowhere : ∀ j, ¬ PartOf a j b.length (.ok (.string b))) : FirstAt a b (-1)

/-- There is one first place. -/
theorem FirstAt.unique {j : Int} (h : FirstAt a b i) (h' : FirstAt a b j) : i = j := by
  cases h with
  | found here first =>
      cases h' with
      | found here' first' =>
          rcases Int.lt_trichotomy i j with lt | eq | gt
          · exact absurd here (first' i lt)
          · exact eq
          · exact absurd here' (first j gt)
      | absent nowhere => exact absurd here (nowhere i)
  | absent nowhere =>
      cases h' with
      | found here => exact absurd here (nowhere j)
      | absent => rfl

theorem firstAt_of_positionOf? (a b : String) :
    FirstAt a b ((positionOf? b.toList a.toList).elim (-1) Nat.cast) := by
  cases h : positionOf? b.toList a.toList with
  | none =>
      refine .absent fun j part => ?_
      exact positionOf?_eq_none.mp h _ (partOf_word_iff.mp part).2
  | some p =>
      obtain ⟨here, first⟩ := positionOf?_eq_some.mp h
      refine .found (partOf_word_iff.mpr ⟨Int.natCast_nonneg p, here⟩) fun j hj part => ?_
      obtain ⟨start, occurs⟩ := partOf_word_iff.mp part
      change j < (p : Int) at hj
      exact first j.toNat (by omega) occurs

end Text

namespace StringMethod

open Text

theorem slice_outside {a : String} {i n : Int} (h : i < 0 ∨ n < 0 ∨ a.length < i + n) :
    slice a.toList i (some n) = .error .indexOutOfRange := by
  rw [slice]
  by_cases start : i < 0
  · rw [if_pos start]
    rfl
  · have refused : (decide (n < 0) || decide (i + n > a.toList.length)) = true := by
      rw [String.length_toList]
      simpa using h.resolve_left start
    rw [if_neg start]
    exact if_pos refused

theorem slice_inside {a : String} {i n : Int} (start : 0 ≤ i) (size : 0 ≤ n)
    (inside : i + n ≤ a.length) : slice a.toList i (some n) =
      .ok (.string (String.ofList ((a.toList.drop i.toNat).take n.toNat))) := by
  have accepted : ¬ (decide (n < 0) || decide (i + n > a.toList.length)) = true := by
    rw [String.length_toList]
    simp only [Bool.or_eq_true, decide_eq_true_eq]
    omega
  rw [slice, if_neg (by omega)]
  exact if_neg accepted

theorem slice_partOf (a : String) (i n : Int) : PartOf a i n (slice a.toList i (some n)) := by
  by_cases h : i < 0 ∨ n < 0 ∨ a.length < i + n
  · rw [slice_outside h]
    exact .outside h
  · rw [slice_inside (by omega) (by omega) (by omega)]
    exact partOf_ok_iff.mpr ⟨by omega, by omega, by omega, String.toList_ofList⟩

/-- The parts before and behind a position make the text. -/
theorem slice_append {a : String} {i : Int} (start : 0 ≤ i) (inside : i ≤ a.length) :
    ∃ front rest, slice a.toList 0 (some i) = .ok (.string front) ∧
      slice a.toList i (some (a.length - i)) = .ok (.string rest) ∧ front ++ rest = a := by
  refine ⟨_, _, slice_inside (by omega) start (by omega),
    slice_inside start (by omega) (by omega), String.toList_inj.mp ?_⟩
  have all : (a.toList.drop i.toNat).take (a.length - i).toNat = a.toList.drop i.toNat := by
    refine List.take_of_length_le ?_
    rw [List.length_drop, String.length_toList]
    omega
  rw [all, String.toList_append, String.toList_ofList, String.toList_ofList]
  exact List.take_append_drop _ _

/-- Below zero the length does not matter, and elsewhere the rest of a text has a length of 32
bits. -/
theorem slice_wrapped {a : String} (short : a.length < 2 ^ 31) (p : IntKind.int32.Word) :
    slice a.toList p.val (some (IntKind.int32.wrap (a.length - p.val)).val) =
      slice a.toList p.val (some (a.length - p.val)) := by
  by_cases start : p.val < 0
  · rw [slice_outside (.inl start), slice_outside (.inl start)]
  · have bounds := IntKind.holds_int32.mp p.holds
    rw [IntKind.wrap_val (IntKind.holds_int32.mpr (by omega))]

/-- A start below zero is refused before the length is looked at, as the slice does itself. -/
theorem substring_call (a : String) (p : IntKind.int32.Word) (length : Option IntKind.int32.Word) :
    substring.call (.string a) (.integer .int32 p :: (length.map (.integer .int32)).toList) =
      slice a.toList p.val (length.map (·.val)) := by
  have steps : substring.call (.string a)
      (.integer .int32 p :: (length.map (.integer .int32)).toList) =
      if p.val < 0 then .error .indexOutOfRange else slice a.toList p.val (length.map (·.val)) := by
    cases length <;> rfl
  rw [steps]
  split
  · rename_i below
    rw [slice, if_pos below]
    rfl
  · rfl

/-- Up to the end is so many characters as are left. -/
theorem slice_rest (a : String) (i : Int) :
    slice a.toList i none = slice a.toList i (some (a.length - i)) := by
  rw [← String.length_toList]
  rfl

/-- The place of a text, as a number of 32 bits, and what it says of the text. -/
theorem placeOf_word {a : String} (b : String) (short : a.length < 2 ^ 31) :
    ∃ k : IntKind.int32.Word, placeOf a.toList b.toList = .integer .int32 k ∧ FirstAt a b k.val ∧
      (positionOf? b.toList a.toList).isSome = decide (k.val ≠ -1) ∧
      (dropHead? b.toList a.toList).isSome = decide (k.val = 0) := by
  have first := firstAt_of_positionOf? a b
  have begins : (dropHead? b.toList a.toList).isSome ↔ positionOf? b.toList a.toList = some 0 := by
    rw [dropHead?_isSome, positionOf?_eq_some, occursAt_zero]
    simp
  rw [Bool.eq_iff_iff.mpr (begins.trans decide_eq_true_iff.symm)]
  cases place : positionOf? b.toList a.toList with
  | none =>
      rw [place] at first
      have absent : (IntKind.int32.wrap (-1)).val = -1 := by decide
      refine ⟨IntKind.int32.wrap (-1), by rw [placeOf, place]; rfl, ?_⟩
      rw [absent]
      exact ⟨first, by decide, by decide⟩
  | some k =>
      rw [place] at first
      have inside := (positionOf?_eq_some.mp place).1.1
      rw [String.length_toList] at inside
      have fits : IntKind.int32.Holds k := IntKind.holds_int32.mpr (by omega)
      refine ⟨IntKind.int32.wrap k, by rw [placeOf, place]; rfl, ?_, ?_, ?_⟩
      · rw [IntKind.wrap_val fits]
        exact first
      · rw [IntKind.wrap_val fits]
        simp
      · rw [IntKind.wrap_val fits]
        simp

end StringMethod

namespace Operand

open Text

variable {host : Host} {scope : Scope} {s t o i n : Operand} {a b : String} {c : Char}
  {p q : IntKind.int32.Word}

/-! ## Members -/

theorem substring_gives (hs : s.Denotes host scope .string (.string a))
    (hi : i.Denotes host scope .int32 (.integer .int32 p))
    (hn : n.Denotes host scope .int32 (.integer .int32 q)) :
    Gives (method .string (some s) "Substring" [i, n]) host scope .string
      (StringMethod.slice a.toList p.val (some q.val)) := by
  have sliced : StringMethod.substring.call (.string a) [.integer .int32 p, .integer .int32 q] =
      StringMethod.slice a.toList p.val (some q.val) := StringMethod.substring_call a p (some q)
  rw [← sliced]
  exact method_gives (b := .string .substring) hs rfl (.cons hi hn.alone) rfl rfl

theorem substring_rest_gives (hs : s.Denotes host scope .string (.string a))
    (hi : i.Denotes host scope .int32 (.integer .int32 p)) :
    Gives (method .string (some s) "Substring" [i]) host scope .string
      (StringMethod.slice a.toList p.val (some (a.length - p.val))) := by
  have sliced : StringMethod.substring.call (.string a) [.integer .int32 p] =
      StringMethod.slice a.toList p.val none := StringMethod.substring_call a p none
  rw [← StringMethod.slice_rest, ← sliced]
  exact method_gives (b := .string .substring) hs rfl hi.alone rfl rfl

theorem length_gives (hs : s.Denotes host scope .string (.string a)) (short : a.length < 2 ^ 31) :
    ∃ w : IntKind.int32.Word, w.val = a.length ∧
      Gives (property .string (some s) "Length") host scope .int32 (.ok (.integer .int32 w)) :=
  ⟨_, IntKind.wrap_val (IntKind.holds_int32.mpr (by omega)),
    property_gives (g := .stringLength) hs rfl⟩

theorem indexOf_gives (hs : s.Denotes host scope .string (.string a))
    (ht : t.Denotes host scope .string (.string b)) :
    Gives (method .string (some s) "IndexOf" [t]) host scope .int32
      (.ok (StringMethod.placeOf a.toList b.toList)) :=
  method_gives (b := .string .indexOf) hs rfl ht.alone rfl rfl

theorem indexOf_char_gives (hs : s.Denotes host scope .string (.string a))
    (ho : o.Denotes host scope .char (.char c)) :
    Gives (method .string (some s) "IndexOf" [o]) host scope .int32
      (.ok (StringMethod.placeOf a.toList [c])) :=
  method_gives (b := .string .indexOf) hs rfl ho.alone rfl rfl

theorem contains_gives (hs : s.Denotes host scope .string (.string a))
    (ht : t.Denotes host scope .string (.string b)) :
    Gives (method .string (some s) "Contains" [t]) host scope .boolean
      (.ok (.boolean (positionOf? b.toList a.toList).isSome)) :=
  method_gives (b := .string .contains) hs rfl ht.alone rfl rfl

theorem startsWith_gives (hs : s.Denotes host scope .string (.string a))
    (ht : t.Denotes host scope .string (.string b)) :
    Gives (method .string (some s) "StartsWith" [t]) host scope .boolean
      (.ok (.boolean (dropHead? b.toList a.toList).isSome)) :=
  method_gives (b := .string .startsWith) hs rfl ht.alone rfl rfl

theorem charAt_gives (hs : s.Denotes host scope .string (.string a))
    (hi : i.Denotes host scope .int32 (.integer .int32 p)) :
    (0 ≤ p.val ∧ p.val < a.length → ∃ d, a.toList[p.val.toNat]? = some d ∧
      Gives (index s [i]) host scope .char (.ok (.char d))) ∧
    (¬ (0 ≤ p.val ∧ p.val < a.length) →
      Gives (index s [i]) host scope .char (.error .indexOutOfRange)) := by
  have char : Gives (index s [i]) host scope .char (StringMethod.charIn (.string a) p.val) :=
    index_gives (b := .string .charAt) hs rfl nofun hi.alone rfl rfl
  rw [StringMethod.charIn] at char
  rw [← String.length_toList]
  constructor
  · rintro ⟨start, inside⟩
    have found := List.getElem?_eq_getElem (show p.val.toNat < a.toList.length by omega)
    rw [if_neg (by omega), found] at char
    exact ⟨_, found, char⟩
  · intro beyond
    split at char
    · exact char
    · rw [List.getElem?_eq_none (by omega)] at char
      exact char

/-- Numbers of 32 bits are subtracted as such: neither dates nor spans take the first of them. -/
theorem number_minus (hs : s.Evaluates host scope .int32 (.ok (.integer .int32 p)))
    (hi : i.Denotes host scope .int32 (.integer .int32 q)) :
    Gives (minus s i) host scope .int32
      (.ok (.int32 (p.val - q.val))) := by
  have passed : Passed host scope [s, i]
      [(.int32, .integer .int32 p), (.int32, .integer .int32 q)] := .cons hs.denotes hi.alone
  have unread : ∀ target ∈ [Ty.dateTime, .timeSpan], ∀ text,
      reread? text .int32 target = none := by
    simp only [List.mem_cons, List.not_mem_nil, or_false]
    rintro target (rfl | rfl) text <;> rfl
  have noDate : Overload.resolveLayers id [s, i] (OperatorClass.ofBinary .subtract).layers =
      Overload.resolveLayers id [s, i] OperatorClass.addition.layers :=
    resolveLayers_apart hs (by simp) nofun (by decide) unread
  have noSpan : Overload.resolveLayers id [s, i] OperatorClass.addition.layers =
      Overload.resolveLayers id [s, i] OperatorClass.arithmetic.layers :=
    resolveLayers_apart hs (by simp) nofun (by decide) unread
  exact binary_gives (k := .minus) hs.denotes hi (fun _ => rfl) nofun rfl nofun
    ((noDate.trans noSpan).trans (resolveLayers_own passed rfl))

/-- Two texts are joined. -/
theorem concat_gives (hs : s.Denotes host scope .string (.string a))
    (ht : t.Denotes host scope .string (.string b)) :
    Gives (joinedTexts s t) host scope .string (.ok (.string (a ++ b))) := by
  have boxed {o : Operand} {a : String} (h : o.Denotes host scope .string (.string a)) :
      o.boxed.eval host scope = .ok (.string a) := by
    have reference : o.ty.isValueType = false := by
      rw [h.ty_eq]
      rfl
    rw [Operand.boxed, reference]
    exact h.eval_eq
  have made (pos : Nat) : joinedTexts s t pos = .ok (concat s t) := by
    rw [joinedTexts, binary, if_pos (.inl rfl)]
  refine gives_plain made rfl ?_
  simp only [Expr.eval, Expr.evalTarget, Expr.evalAll, boxed hs, boxed ht]
  rfl

/-- A part up to the end is the part of the length that is left. -/
theorem substring_rest_counted (hs : s.Denotes host scope .string (.string a))
    (hi : i.Denotes host scope .int32 (.integer .int32 p)) (short : a.length < 2 ^ 31) :
    ∃ length rest outcome, (∀ pos, property .string (some s) "Length" pos = .ok length) ∧
      (∃ w : IntKind.int32.Word, w.val = a.length ∧
        length.Denotes host scope .int32 (.integer .int32 w)) ∧
      (∀ pos, minus length i pos = .ok rest) ∧
      Gives (method .string (some s) "Substring" [i]) host scope .string outcome ∧
      Gives (method .string (some s) "Substring" [i, rest]) host scope .string outcome := by
  obtain ⟨w, counted, length, made, counts⟩ := length_gives hs short
  obtain ⟨rest, subtracted, rests⟩ := number_minus counts hi
  have part := substring_gives hs hi rests.denotes
  rw [counted, StringMethod.slice_wrapped short] at part
  exact ⟨length, rest, _, made, ⟨w, counted, counts.denotes⟩, subtracted,
    substring_rest_gives hs hi, part⟩

/-- The parts before and behind a position are joined to the text. -/
theorem parts_joined (hs : s.Denotes host scope .string (.string a))
    (hi : i.Denotes host scope .int32 (.integer .int32 p)) (start : 0 ≤ p.val)
    (inside : p.val ≤ a.length) {z : Operand} (hz : z.Denotes host scope .int32 (.int32 0)) :
    ∃ front rest, (∀ pos, method .string (some s) "Substring" [z, i] pos = .ok front) ∧
      (∀ pos, method .string (some s) "Substring" [i] pos = .ok rest) ∧
      Gives (joinedTexts front rest) host scope .string (.ok (.string a)) := by
  obtain ⟨x, y, before, behind, whole⟩ := StringMethod.slice_append start inside
  obtain ⟨front, made, fronts⟩ := substring_gives hs hz hi
  obtain ⟨rest, made', rests⟩ := substring_rest_gives hs hi
  have none : (IntKind.int32.wrap 0).val = 0 := by decide
  rw [none, before] at fronts
  rw [behind] at rests
  refine ⟨front, rest, made, made', ?_⟩
  rw [← whole]
  exact concat_gives fronts.denotes rests.denotes

/-- The members of texts count alike: a part is there if it is in the text, up to the end or not, a
character is there if its position is, the first place of a text is that of the first part that is
this text, and tells if the text is contained or begins the other one; and the parts before and
behind a position make the text. -/
theorem text_positions (hs : s.Denotes host scope .string (.string a))
    (ht : t.Denotes host scope .string (.string b))
    (ho : o.Denotes host scope .char (.char c))
    (hi : i.Denotes host scope .int32 (.integer .int32 p))
    (hn : n.Denotes host scope .int32 (.integer .int32 q)) (short : a.length < 2 ^ 31) :
    (∃ outcome, PartOf a p.val q.val outcome ∧
      Gives (method .string (some s) "Substring" [i, n]) host scope .string outcome) ∧
    (∃ length rest outcome, (∀ pos, property .string (some s) "Length" pos = .ok length) ∧
      (∃ w : IntKind.int32.Word, w.val = a.length ∧
        length.Denotes host scope .int32 (.integer .int32 w)) ∧
      (∀ pos, minus length i pos = .ok rest) ∧
      Gives (method .string (some s) "Substring" [i]) host scope .string outcome ∧
      Gives (method .string (some s) "Substring" [i, rest]) host scope .string outcome) ∧
    ((0 ≤ p.val ∧ p.val < a.length → ∃ d, a.toList[p.val.toNat]? = some d ∧
        Gives (index s [i]) host scope .char (.ok (.char d))) ∧
      (¬ (0 ≤ p.val ∧ p.val < a.length) →
        Gives (index s [i]) host scope .char (.error .indexOutOfRange))) ∧
    (∃ k : IntKind.int32.Word, FirstAt a b k.val ∧
      Gives (method .string (some s) "IndexOf" [t]) host scope .int32
        (.ok (.integer .int32 k)) ∧
      Gives (method .string (some s) "Contains" [t]) host scope .boolean
        (.ok (.boolean (k.val ≠ -1))) ∧
      Gives (method .string (some s) "StartsWith" [t]) host scope .boolean
        (.ok (.boolean (k.val = 0)))) ∧
    (∀ u : Operand, u.Denotes host scope .string (.string (String.singleton c)) →
      ∃ outcome, Gives (method .string (some s) "IndexOf" [o]) host scope .int32 outcome ∧
        Gives (method .string (some s) "IndexOf" [u]) host scope .int32 outcome) ∧
    (0 ≤ p.val → p.val ≤ a.length →
      ∀ z : Operand, z.Denotes host scope .int32 (.int32 0) → ∃ front rest,
        (∀ pos, method .string (some s) "Substring" [z, i] pos = .ok front) ∧
        (∀ pos, method .string (some s) "Substring" [i] pos = .ok rest) ∧
        Gives (joinedTexts front rest) host scope .string (.ok (.string a))) := by
  refine ⟨⟨_, StringMethod.slice_partOf a p.val q.val, substring_gives hs hi hn⟩,
    substring_rest_counted hs hi short, charAt_gives hs hi, ?_, fun u hu => ?_,
    fun start inside z hz => parts_joined hs hi start inside hz⟩
  · obtain ⟨k, place, first, contained, begins⟩ := StringMethod.placeOf_word b short
    refine ⟨k, first, ?_⟩
    rw [← contained, ← begins, ← place]
    exact ⟨indexOf_gives hs ht, contains_gives hs ht, startsWith_gives hs ht⟩
  · refine ⟨_, indexOf_char_gives hs ho, ?_⟩
    rw [← String.toList_singleton]
    exact indexOf_gives hs hu

/-- A text in which a letter of two bytes stands before the one that is looked for. -/
theorem text_positions_accented :
    let text := plain (.constant (.string "\u00E9clair") .string)
    let word := plain (.constant (.string "lai") .string)
    let letter := plain (.constant (.char 'l') .char)
    let two := plain (.constant (.int32 2) .int32)
    text.Denotes .silent [] .string (.string "\u00E9clair") ∧
      word.Denotes .silent [] .string (.string "lai") ∧
      letter.Denotes .silent [] .char (.char 'l') ∧
      two.Denotes .silent [] .int32 (.integer .int32 (IntKind.int32.wrap 2)) ∧
      "\u00E9clair".length < 2 ^ 31 ∧
      Gives (method .string (some text) "IndexOf" [word]) .silent [] .int32 (.ok (.int32 2)) ∧
      Gives (index text [two]) .silent [] .char (.ok (.char 'l')) := by
  intro text word letter two
  have hs := denotes_constant .silent [] (.string "\u00E9clair") .string
  have ht := denotes_constant .silent [] (.string "lai") .string
  have ho := denotes_constant .silent [] (.char 'l') .char
  have hi := denotes_constant .silent [] (.int32 2) .int32
  have short : "\u00E9clair".length < 2 ^ 31 := by decide
  obtain ⟨-, -, ⟨character, -⟩, ⟨k, first, place, -⟩, -⟩ := text_positions hs ht ho hi hi short
  obtain ⟨c, found, char⟩ := character (by decide)
  have third : FirstAt "\u00E9clair" "lai" 2 := firstAt_of_positionOf? "\u00E9clair" "lai"
  have two_eq : k = IntKind.int32.wrap 2 := IntKind.Word.eq_of_val (first.unique third)
  rw [two_eq] at place
  cases found
  exact ⟨hs, ht, ho, hi, short, place, char⟩

end Operand
end TypedExpr
