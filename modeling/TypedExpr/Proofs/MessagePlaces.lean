import TypedExpr.Diagnostic
import Mathlib.Logic.Function.Basic

/-! # Places of a message

A message is its template with the arguments at their places. The places are filled one after the
other in the growing text, so an argument that brings the place of a later one along is not shown
as it is. Here the pieces of a template are told apart first, and then written with the arguments;
whenever no text that was inserted makes a place, both ways give the same message.
-/

namespace TypedExpr

/-! ## Replacing a word -/

namespace Text

variable {word new u rest : List Char}

theorem prefix_of_prefix_append_cons {a : Char} (other : a ∉ word) (h : word <+: u ++ a :: rest) :
    word <+: u := by
  rcases List.prefix_or_prefix_of_prefix h (List.prefix_append u _) with within | ⟨more, rfl⟩
  · exact within
  · cases more with
    | nil => simp
    | cons b more =>
        have next := (List.prefix_append_right_inj u).mp h
        obtain ⟨rfl, -⟩ := List.cons_prefix_cons.mp next
        simp at other

/-- What no occurrence of the word begins in is kept. -/
theorem replaceFrom_keeps (h : ∀ v, v <:+ u → v ≠ [] → ¬ word <+: v ++ rest) :
    replaceFrom word new 0 (u ++ rest) = u ++ replaceFrom word new 0 rest := by
  induction u with
  | nil => rfl
  | cons c u ih =>
      have here : ¬ word <+: c :: (u ++ rest) := h (c :: u) List.suffix_rfl nofun
      have later := ih fun v behind => h v (behind.trans (List.suffix_cons c u))
      rw [List.cons_append, replaceFrom, if_neg (by rwa [List.isPrefixOf_iff_prefix]), later,
        List.cons_append]

theorem replaceFrom_of_not_infix (h : ¬ word <:+: u) : replaceFrom word new 0 u = u := by
  have kept : replaceFrom word new 0 (u ++ []) = u ++ replaceFrom word new 0 [] := by
    refine replaceFrom_keeps fun v behind _ front => h ?_
    rw [List.append_nil] at front
    exact front.isInfix.trans behind.isInfix
  simpa [replaceFrom] using kept

theorem replaceFrom_skip (u rest : List Char) :
    replaceFrom word new u.length (u ++ rest) = replaceFrom word new 0 rest := by
  induction u with
  | nil => rfl
  | cons c u ih => exact ih

theorem replaceFrom_word {c : Char} (w rest : List Char) :
    replaceFrom (c :: w) new 0 (c :: w ++ rest) = new ++ replaceFrom (c :: w) new 0 rest := by
  rw [List.cons_append, replaceFrom, if_pos (by simp), List.length_cons, Nat.add_sub_cancel,
    replaceFrom_skip]

theorem replaceFrom_self {c : Char} (w : List Char) :
    replaceFrom (c :: w) new 0 (c :: w) = new := by
  have whole : replaceFrom (c :: w) new 0 (c :: w ++ []) = _ := replaceFrom_word w []
  simpa [replaceFrom] using whole

/-- A character that the word holds nowhere but at its start ends what is replaced before it. -/
theorem replaceFrom_append {c : Char} {w : List Char} {skip : Nat} (inside : skip ≤ u.length)
    (fence : ∀ a, rest.head? = some a → a ∉ w) :
    replaceFrom (c :: w) new skip (u ++ rest) =
      replaceFrom (c :: w) new skip u ++ replaceFrom (c :: w) new 0 rest := by
  have within : ∀ {l}, w <+: l ++ rest → w <+: l := by
    intro l h
    cases rest with
    | nil => rwa [List.append_nil] at h
    | cons a rest => exact prefix_of_prefix_append_cons (fence a rfl) h
  induction u generalizing skip with
  | nil =>
      obtain rfl := Nat.le_zero.mp inside
      rfl
  | cons d u ih =>
      cases skip with
      | succ skip => exact ih (Nat.le_of_succ_le_succ inside)
      | zero =>
          -- an occurrence that begins in `u` ends there, since it cannot pass the fence
          have same : (c :: w).isPrefixOf (d :: (u ++ rest)) = (c :: w).isPrefixOf (d :: u) := by
            rw [Bool.eq_iff_iff, List.isPrefixOf_iff_prefix, List.isPrefixOf_iff_prefix,
              List.cons_prefix_cons, List.cons_prefix_cons]
            exact and_congr_right fun _ => ⟨within, fun h => h.trans (List.prefix_append u rest)⟩
          rw [List.cons_append, replaceFrom, replaceFrom, same]
          split
          · rename_i occurs
            have fits : w.length ≤ u.length :=
              (List.cons_prefix_cons.mp (List.isPrefixOf_iff_prefix.mp occurs)).2.length_le
            rw [List.length_cons, Nat.add_sub_cancel, ih fits, List.append_assoc]
          · rw [ih (Nat.zero_le _), List.cons_append]

end Text

namespace Message

/-! ## Pieces of a template -/

/-- A piece of a template. -/
inductive Piece where
  /-- A character that is written as it is. -/
  | char (c : Char)
  /-- The place of an argument. -/
  | place (i : Nat)
  deriving DecidableEq, Repr

/-- The place below `n` with which the text opens. -/
def placeAt? (n : Nat) (s : List Char) : Option Nat :=
  (List.range n).find? fun i => (place i).toList.isPrefixOf s

/-- The pieces of a text with `n` places, after passing over `skip` characters of a place. -/
def piecesFrom (n : Nat) : (skip : Nat) → List Char → List Piece
  | _, [] => []
  | skip + 1, _ :: cs => piecesFrom n skip cs
  | 0, c :: cs =>
    match placeAt? n (c :: cs) with
    | some i => .place i :: piecesFrom n ((place i).length - 1) cs
    | none => .char c :: piecesFrom n 0 cs

/-- Pieces with these texts at their places. -/
def written (texts : Nat → List Char) (ps : List Piece) : List Char :=
  ps.flatMap fun
    | .char c => [c]
    | .place i => texts i

/-- The arguments at their places; what there is no argument for stays a place. -/
def textsOf (arguments : List String) (i : Nat) : List Char :=
  (arguments[i]?.getD (place i)).toList

/-- All places of the template filled at once. -/
def substitute (template : String) (arguments : List String) : String :=
  String.ofList (written (textsOf arguments) (piecesFrom arguments.length 0 template.toList))

variable {template : String} {arguments rest : List String} {n i j skip : Nat}
variable {new u v w cs : List Char} {ps : List Piece} {f g : Nat → List Char}

/-! ### Places as texts -/

theorem toList_place (i : Nat) :
    (place i).toList = '\x7b' :: (Nat.toDigits 10 i ++ ['\x7d']) := by
  simp [place]

/-- Behind its opening brace a place has digits and the closing brace only. -/
theorem mem_inside_place {c : Char} (h : c ∈ Nat.toDigits 10 i ++ ['\x7d']) :
    c.isDigit ∨ c = '\x7d' := by
  rcases List.mem_append.mp h with digit | closing
  · exact .inl (Nat.isDigit_of_mem_toDigits (by decide) (by decide) digit)
  · exact .inr (List.mem_singleton.mp closing)

theorem opening_notMem : '\x7b' ∉ Nat.toDigits 10 i ++ ['\x7d'] := fun inside => by
  rcases mem_inside_place inside with digit | closing
  · exact absurd digit (by decide)
  · exact absurd closing (by decide)

/-- A text opens with one place at most. -/
theorem place_unique (h : (place i).toList <+: (place j).toList ++ w) : i = j := by
  have digits : ∀ k l, (Nat.toDigits 10 k ++ '\x7d' :: l).takeWhile Char.isDigit =
      Nat.toDigits 10 k := by
    intro k l
    rw [List.takeWhile_append_of_pos fun c hc =>
      Nat.isDigit_of_mem_toDigits (by decide) (by decide) hc]
    simp
  rw [toList_place, toList_place, List.cons_append, List.cons_prefix_cons] at h
  obtain ⟨more, same⟩ := h.2
  simp only [List.append_assoc, List.singleton_append] at same
  have equal : Nat.toDigits 10 i = Nat.toDigits 10 j := by
    rw [← digits i more, same, digits]
  calc i = Nat.ofDigitChars 10 (Nat.toDigits 10 i) 0 := Nat.ofDigitChars_ten_toDigits.symm
    _ = j := by rw [equal, Nat.ofDigitChars_ten_toDigits]

/-- No place begins inside another one. -/
theorem not_prefix_of_suffix_place (other : i ≠ j) (behind : v <:+ (place j).toList)
    (some : v ≠ []) : ¬ (place i).toList <+: v ++ w := by
  intro h
  rw [toList_place j, List.suffix_cons_iff] at behind
  rcases behind with rfl | inside
  · rw [← toList_place] at h
    exact other (place_unique h)
  · obtain ⟨c, v, rfl⟩ := List.exists_cons_of_ne_nil some
    rw [toList_place, List.cons_append, List.cons_prefix_cons] at h
    obtain ⟨rfl, -⟩ := h
    exact opening_notMem (inside.subset List.mem_cons_self)

theorem not_infix_place (other : i ≠ j) : ¬ (place i).toList <:+: (place j).toList := by
  intro h
  obtain ⟨v, front, behind⟩ := List.infix_iff_prefix_suffix.mp h
  have some : v ≠ [] := by
    rintro rfl
    rw [toList_place] at front
    simp at front
  have bare : ¬ (place i).toList <+: v ++ [] := not_prefix_of_suffix_place other behind some
  rw [List.append_nil] at bare
  exact bare front

/-! ### Writing the pieces -/

@[simp] theorem written_nil (f : Nat → List Char) : written f [] = [] := rfl

@[simp] theorem written_char (f : Nat → List Char) (c : Char) (ps : List Piece) :
    written f (.char c :: ps) = c :: written f ps := rfl

@[simp] theorem written_place (f : Nat → List Char) (i : Nat) (ps : List Piece) :
    written f (.place i :: ps) = f i ++ written f ps := rfl

theorem written_congr (h : ∀ i, .place i ∈ ps → f i = g i) : written f ps = written g ps := by
  induction ps with
  | nil => rfl
  | cons p ps ih =>
      have later := ih fun i hi => h i (List.mem_cons_of_mem p hi)
      cases p with
      | char c => rw [written_char, written_char, later]
      | place i => rw [written_place, written_place, later, h i List.mem_cons_self]

theorem of_placeAt? (h : placeAt? n cs = some i) : i < n ∧ (place i).toList <+: cs :=
  ⟨List.mem_range.mp (List.mem_of_find?_eq_some h),
    List.isPrefixOf_iff_prefix.mp
      (List.find?_some (p := fun i => (place i).toList.isPrefixOf cs) h)⟩

/-- Nothing of the template is lost. -/
theorem written_piecesFrom (n skip : Nat) (cs : List Char) :
    written (textsOf []) (piecesFrom n skip cs) = cs.drop skip := by
  fun_induction piecesFrom n skip cs with
  | case1 => simp
  | case2 skip c cs ih => exact ih
  | case3 c cs i found ih =>
      obtain ⟨rest, split⟩ := (of_placeAt? found).2
      rw [toList_place, List.cons_append] at split
      obtain ⟨rfl, rfl⟩ := List.cons.inj split
      have taken : (place i).length - 1 = (Nat.toDigits 10 i ++ ['\x7d']).length := by
        rw [← String.length_toList, toList_place]
        rfl
      rw [written_place, ih, taken, List.drop_left]
      show (place i).toList ++ rest = _
      rw [toList_place]
      rfl
  | case4 c cs none ih =>
      rw [written_char, ih]
      rfl

theorem lt_of_mem_piecesFrom (h : .place i ∈ piecesFrom n skip cs) : i < n := by
  fun_induction piecesFrom n skip cs with
  | case1 => cases h
  | case2 skip c cs ih => exact ih h
  | case3 c cs k found ih =>
      rcases List.mem_cons.mp h with same | later
      · cases same
        exact (of_placeAt? found).1
      · exact ih later
  | case4 c cs none ih =>
      rcases List.mem_cons.mp h with same | later
      · cases same
      · exact ih later

/-! ## One place after the other -/

/-- When the turn of a place comes, it stands nowhere but where the template has it: neither in the
texts inserted so far, nor where these meet other text. The places that are left are blank. -/
def Undisturbed (template : String) (arguments : List String) : Prop :=
  ∀ i < arguments.length, ¬ (place i).toList <:+: (substitute template
    (arguments.take i ++ List.replicate (arguments.length - i) " ")).toList

instance : Decidable (Undisturbed template arguments) :=
  inferInstanceAs (Decidable (∀ i < arguments.length, ¬ _ <:+: _))

/-- Where other texts are written, these are places: a text without a brace lies before them. -/
theorem prefix_written (alike : ∀ k, f k = g k ∨ f k = (place k).toList) (plain : '\x7b' ∉ w)
    (h : w <+: u ++ written f ps) : w <+: u ++ written g ps := by
  induction ps generalizing u with
  | nil => exact h
  | cons p ps ih =>
      cases p with
      | char c =>
          rw [written_char, List.append_cons] at h ⊢
          exact ih h
      | place k =>
          rw [written_place] at h ⊢
          rcases alike k with same | marked
          · rw [← List.append_assoc] at h ⊢
            rw [same] at h
            exact ih h
          · rw [marked, toList_place, List.cons_append] at h
            exact (Text.prefix_of_prefix_append_cons plain h).trans (List.prefix_append u _)

/-- A place that stands nowhere in the second text does not begin in the part before the pieces of
the first one, either. -/
theorem not_prefix_written (alike : ∀ k, f k = g k ∨ f k = (place k).toList)
    (clear : ¬ (place i).toList <:+: u ++ written g ps) (behind : v <:+ u) (some : v ≠ []) :
    ¬ (place i).toList <+: v ++ written f ps := by
  intro h
  obtain ⟨c, v, rfl⟩ := List.exists_cons_of_ne_nil some
  obtain ⟨before, rfl⟩ := behind
  have front : (place i).toList <+: c :: v ++ written g ps := by
    rw [toList_place, List.cons_append, List.cons_prefix_cons] at h ⊢
    exact ⟨h.1, prefix_written alike opening_notMem h.2⟩
  rw [List.append_assoc] at clear
  exact clear (front.isInfix.trans (List.suffix_append before _).isInfix)

/-- The turn of a place: its argument comes where the template has it, and nothing else changes. -/
theorem replaceFrom_written (alike : ∀ k, f k = g k ∨ f k = (place k).toList)
    (marked : f i = (place i).toList) (clear : ¬ (place i).toList <:+: written g ps) :
    Text.replaceFrom (place i).toList new 0 (written f ps) =
      written (Function.update f i new) ps := by
  induction ps with
  | nil => rfl
  | cons p ps ih =>
      cases p with
      | char c =>
          have later := ih fun h => clear (h.trans (List.suffix_cons c _).isInfix)
          have kept : ∀ v, v <:+ [c] → v ≠ [] → ¬ (place i).toList <+: v ++ written f ps :=
            fun v => not_prefix_written alike clear
          rw [written_char, ← List.singleton_append, Text.replaceFrom_keeps kept, later]
          rfl
      | place k =>
          have later := ih fun h => clear (h.trans (List.suffix_append (g k) _).isInfix)
          rw [written_place, written_place, ← later]
          by_cases turn : k = i
          · subst turn
            rw [marked, Function.update_self, toList_place, Text.replaceFrom_word]
          · -- what stands here is an argument as in the second text, or a place that has to wait
            rw [Function.update_of_ne turn]
            refine Text.replaceFrom_keeps fun v behind some => ?_
            rcases alike k with same | other
            · rw [written_place, ← same] at clear
              exact not_prefix_written alike clear behind some
            · rw [other] at behind
              exact not_prefix_of_suffix_place (Ne.symm turn) behind some

theorem textsOf_of_length_le (h : arguments.length ≤ i) :
    textsOf arguments i = (place i).toList := by
  rw [textsOf, List.getElem?_eq_none h, Option.getD_none]

theorem textsOf_append (h : i < arguments.length) :
    textsOf (arguments ++ rest) i = textsOf arguments i := by
  rw [textsOf, textsOf, List.getElem?_append_left h]

theorem textsOf_concat (arguments : List String) (a : String) :
    textsOf (arguments ++ [a]) =
      Function.update (textsOf arguments) arguments.length a.toList := by
  funext i
  rcases Nat.lt_trichotomy i arguments.length with before | rfl | behind
  · rw [textsOf_append before, Function.update_of_ne (Nat.ne_of_lt before)]
  · rw [Function.update_self, textsOf, List.getElem?_concat_length, Option.getD_some]
  · rw [Function.update_of_ne (Nat.ne_of_gt behind), textsOf_of_length_le (Nat.le_of_lt behind),
      textsOf_of_length_le (by rwa [List.length_append])]

theorem textsOf_alike (arguments rest : List String) (i : Nat) :
    textsOf arguments i = textsOf (arguments ++ rest) i ∨
      textsOf arguments i = (place i).toList := by
  rcases Nat.lt_or_ge i arguments.length with given | later
  · exact .inl (textsOf_append given).symm
  · exact .inr (textsOf_of_length_le later)

/-- The first arguments are at their places; the others come there one after the other. -/
theorem fillFrom_written {given : List String} (split : given ++ rest = arguments)
    (clear : ∀ i < arguments.length, ¬ (place i).toList <:+: written
      (textsOf (arguments.take i ++ List.replicate (arguments.length - i) " ")) ps) :
    fillFrom given.length (String.ofList (written (textsOf given) ps)) rest =
      String.ofList (written (textsOf arguments) ps) := by
  -- over the arguments that are still to come; those given are what the text holds so far
  induction rest generalizing given with
  | nil => rw [fillFrom, ← split, List.append_nil]
  | cons a rest ih =>
      have here := clear given.length (by simp [← split])
      have before : arguments.take given.length = given := by rw [← split, List.take_left]
      rw [before] at here
      have turn : Text.replace (place given.length) a
          (String.ofList (written (textsOf given) ps)) =
          String.ofList (written (textsOf (given ++ [a])) ps) := by
        rw [Text.replace, String.toList_ofList, replaceFrom_written (textsOf_alike given _)
          (textsOf_of_length_le (Nat.le_refl _)) here, textsOf_concat]
      rw [List.append_cons] at split
      rw [fillFrom, turn, ← ih split, List.length_append]
      rfl

/-- A template with all its places still in it. -/
theorem ofList_written_places (n : Nat) (template : String) :
    String.ofList (written (textsOf []) (piecesFrom n 0 template.toList)) = template := by
  rw [written_piecesFrom, List.drop_zero, String.ofList_toList]

theorem fill_of_undisturbed (h : Undisturbed template arguments) :
    fill template arguments = substitute template arguments := by
  have filled : fillFrom 0 (String.ofList
      (written (textsOf []) (piecesFrom arguments.length 0 template.toList))) arguments =
        substitute template arguments := by
    refine fillFrom_written (List.nil_append arguments) fun i given => ?_
    have clear := h i given
    rw [substitute, String.toList_ofList, List.length_append, List.length_replicate,
      List.length_take_of_le (Nat.le_of_lt given), Nat.add_sub_cancel' (Nat.le_of_lt given)]
      at clear
    exact clear
  rwa [ofList_written_places] at filled

/-! ## Templates with other text around their places -/

/-- The template itself has no opening brace, and what follows a place neither continues nor closes
one. -/
def fenced : List Piece → Bool
  | [] => true
  | .char c :: ps => c != '\x7b' && fenced ps
  | [.place _] => true
  | .place _ :: .place _ :: _ => false
  | .place _ :: .char c :: ps => !c.isDigit && c != '\x7d' && fenced (.char c :: ps)

/-- Among such pieces, what is replaced for a place is replaced in each text by itself. -/
theorem replaceFrom_fenced (h : fenced ps) (f : Nat → List Char) :
    Text.replaceFrom (place i).toList new 0 (written f ps) =
      written (fun k => Text.replaceFrom (place i).toList new 0 (f k)) ps := by
  fun_induction fenced ps with
  | case1 => rfl
  | case2 c ps ih =>
      obtain ⟨plain, h⟩ := Bool.and_eq_true_iff.mp h
      have other : ¬ (place i).toList <+: c :: written f ps := by
        rw [toList_place, List.cons_prefix_cons]
        rintro ⟨rfl, -⟩
        cases plain
      rw [written_char, Text.replaceFrom, if_neg (by rwa [List.isPrefixOf_iff_prefix]), ih h]
      rfl
  | case3 k => simp
  | case4 => cases h
  | case5 k c ps ih =>
      obtain ⟨fence, h⟩ := Bool.and_eq_true_iff.mp h
      have outside : c ∉ Nat.toDigits 10 i ++ ['\x7d'] := fun inside => by
        rcases mem_inside_place inside with digit | rfl
        · simp [digit] at fence
        · simp at fence
      rw [written_place, written_place, ← ih h, toList_place]
      refine Text.replaceFrom_append (Nat.zero_le _) fun a first => ?_
      cases first
      exact outside

theorem fillFrom_fenced (h : fenced ps) (f : Nat → List Char) (arguments : List String) :
    fillFrom i (String.ofList (written f ps)) arguments =
      String.ofList
        (written (fun k => (fillFrom i (String.ofList (f k)) arguments).toList) ps) := by
  induction arguments generalizing i f with
  | nil => simp [fillFrom]
  | cons a rest ih =>
      rw [fillFrom, Text.replace, String.toList_ofList, replaceFrom_fenced h, ih]
      simp [fillFrom, Text.replace]

/-- The texts that a message shows at its places: each argument with the places of the later ones
that it contains filled as well. -/
def settled (arguments : List String) : List String :=
  arguments.mapIdx fun i a => fillFrom (i + 1) a (arguments.drop (i + 1))

theorem fillFrom_of_absent {text : String}
    (h : ∀ k < arguments.length, ¬ (place (i + k)).toList <:+: text.toList) :
    fillFrom i text arguments = text := by
  induction arguments generalizing i with
  | nil => rfl
  | cons a rest ih =>
      have kept : Text.replace (place i) a text = text := by
        have clear : ¬ (place i).toList <:+: text.toList := h 0 (Nat.succ_pos _)
        rw [Text.replace, Text.replaceFrom_of_not_infix clear, String.ofList_toList]
      rw [fillFrom, kept]
      refine ih fun k given => ?_
      rw [Nat.add_right_comm]
      exact h (k + 1) (Nat.succ_lt_succ given)

/-- A place waits for its turn and then takes its argument, which later turns may change. -/
theorem fillFrom_place {k : Nat} {a : String} (h : arguments[k]? = some a) :
    fillFrom i (place (i + k)) arguments =
      fillFrom (i + k + 1) a (arguments.drop (k + 1)) := by
  induction arguments generalizing i k with
  | nil => cases h
  | cons b rest ih =>
      cases k with
      | zero =>
          cases h
          have taken : Text.replace (place i) a (place i) = a := by
            rw [Text.replace, toList_place, Text.replaceFrom_self, String.ofList_toList]
          rw [Nat.add_zero, fillFrom, taken]
          rfl
      | succ k =>
          have other : i ≠ i + (k + 1) := by omega
          have turn : i + (k + 1) = i + 1 + k := by omega
          rw [fillFrom, Text.replace, Text.replaceFrom_of_not_infix (not_infix_place other),
            String.ofList_toList, turn, ih h]
          rfl

/-- Where the template fences its places, only the arguments themselves bring places along. -/
theorem fill_of_fenced (h : fenced (piecesFrom arguments.length 0 template.toList)) :
    fill template arguments = substitute template (settled arguments) := by
  have filled := fillFrom_fenced (i := 0) h (textsOf []) arguments
  rw [ofList_written_places] at filled
  rw [fill, filled, substitute, settled, List.length_mapIdx]
  refine congrArg String.ofList (written_congr fun k inside => ?_)
  have known : k < arguments.length := lt_of_mem_piecesFrom inside
  have given : arguments[k]? = some arguments[k] := List.getElem?_eq_getElem known
  have shown : fillFrom 0 (place k) arguments =
      fillFrom (k + 1) arguments[k] (arguments.drop (k + 1)) := by
    simpa using fillFrom_place (i := 0) given
  rw [textsOf_of_length_le (Nat.zero_le k), String.ofList_toList, shown, textsOf,
    List.getElem?_mapIdx, given, Option.map_some, Option.getD_some]

theorem settled_of_absent
    (h : ∀ j < arguments.length, ∀ a ∈ arguments.take j, ¬ (place j).toList <:+: a.toList) :
    settled arguments = arguments := by
  refine List.ext_getElem (List.length_mapIdx ..) fun i _ given => ?_
  simp only [settled, List.getElem_mapIdx]
  refine fillFrom_of_absent fun k later => ?_
  rw [List.length_drop] at later
  exact h _ (by omega) _ (List.mem_take_iff_getElem.mpr ⟨i, by omega, rfl⟩)

/-! ## Messages of problems -/

theorem fenced_ofList (h : fenced (piecesFrom n 0 cs)) :
    fenced (piecesFrom n 0 (String.ofList cs).toList) := by
  rwa [String.toList_ofList]

theorem template_fenced (p : Problem) :
    fenced (piecesFrom p.arguments.length 0 p.template.toList) := by
  cases p
  all_goals
    simp only [Problem.arguments, Problem.template, List.length_cons, List.length_nil]
    -- on the characters, so that the template is not taken apart again at every piece
    refine fenced_ofList ?_
    decide

/-- Whatever the arguments are, they are shown as they are as long as no inserted text makes a place
of its own. A problem's message shows each argument with the places of the later ones in it filled,
and hence as it is when it has none. -/
theorem arguments_shown (template : String) (arguments : List String) :
    (Undisturbed template arguments →
      fill template arguments = substitute template arguments) ∧
    ∀ p : Problem, p.message = substitute p.template (settled p.arguments) ∧
      ((∀ j < p.arguments.length, ∀ a ∈ p.arguments.take j, ¬ (place j).toList <:+: a.toList) →
        p.message = substitute p.template p.arguments) := by
  refine ⟨fill_of_undisturbed, fun p => ?_⟩
  have shown : p.message = substitute p.template (settled p.arguments) :=
    fill_of_fenced (template_fenced p)
  refine ⟨shown, fun absent => ?_⟩
  rw [shown, settled_of_absent absent]

/-- The place of an earlier argument does no harm, nor one that no argument belongs to. -/
theorem arguments_shown_places :
    fill "'\x7b0\x7d' and '\x7b1\x7d'" ["\x7b2\x7d", "\x7b0\x7d"] =
        "'\x7b2\x7d' and '\x7b0\x7d'" ∧
      (Problem.neitherConverts "Int32" "\x7b0\x7d").message =
        "Neither of the types 'Int32' and '\x7b0\x7d' converts to the other" := by
  obtain ⟨undisturbed, problems⟩ :=
    arguments_shown "'\x7b0\x7d' and '\x7b1\x7d'" ["\x7b2\x7d", "\x7b0\x7d"]
  have shown := (problems (.neitherConverts "Int32" "\x7b0\x7d")).2 (by decide)
  exact ⟨(undisturbed (by decide +kernel)).trans (by decide), shown.trans (by decide)⟩

/-- A text that is the place of a later argument is lost, also when a type has it for a name. -/
theorem arguments_lost_places :
    fill "'\x7b0\x7d' and '\x7b1\x7d'" ["\x7b1\x7d", "x"] = "'x' and 'x'" ∧
      substitute "'\x7b0\x7d' and '\x7b1\x7d'" ["\x7b1\x7d", "x"] = "'\x7b1\x7d' and 'x'" ∧
      (Problem.neitherConverts "\x7b1\x7d" "Int32").message =
        "Neither of the types 'Int32' and 'Int32' converts to the other" :=
  ⟨by decide, by decide, by decide⟩

end Message
end TypedExpr
