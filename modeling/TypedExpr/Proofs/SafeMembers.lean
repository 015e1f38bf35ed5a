import TypedExpr.Proofs.SafeArguments

/-! # Members of values, texts, characters and numbers are safe

Each method meets its contract in all its overloads; a table of methods is safe as each of its
entries is.
-/

namespace TypedExpr

open Outcome Value

variable {texts : Prop} {receiver a b : Value} {t : Ty}

/-! ## Texts -/

namespace StringMethod

/-- A value made of the receiver's text. -/
theorem onText_safe {f : String → Value} (hr : receiver.Conforms texts .string)
    (hf : ∀ s, (f s).Conforms texts t) :
    (receiver.asText >>= fun s => .ok (f s)).Safe texts fun v => v.Conforms texts t :=
  Safe.bind (asText_safe hr) fun s _ => .ok (hf s)

/-- A value made of the receiver's text and another one. -/
theorem onTexts_safe {f : String → String → Value} (hr : receiver.Conforms texts .string)
    (ha : a.Conforms texts .string) (hf : ∀ r s, (f r s).Conforms texts t) :
    (receiver.asText >>= fun r => a.asText >>= fun s => .ok (f r s)).Safe texts
      fun v => v.Conforms texts t :=
  Safe.bind (asText_safe hr) fun r _ => onText_safe ha (hf r)

theorem slice_safe (s : List Char) (start : Int) (length : Option Int) :
    (slice s start length).Safe texts fun v => v.Conforms texts .string := by
  simp only [slice]
  split
  · exact .error .indexOutOfRange
  · split
    · exact .error .indexOutOfRange
    · exact .ok (.scalar rfl rfl rfl)

theorem placeOf_conforms (s word : List Char) : (placeOf s word).Conforms texts .int32 := by
  unfold placeOf
  split
  · exact .scalar rfl rfl rfl
  · exact .scalar rfl rfl rfl

theorem charIn_safe (receiver : Value) (index : Int) :
    (charIn receiver index).Safe texts fun v => v.Conforms texts .char := by
  simp only [charIn]
  split
  · exact .error .indexOutOfRange
  · exact Safe.ofMap .indexOutOfRange fun c => .scalar rfl rfl rfl

theorem charAt_safe (receiver : Value) (ha : a.Conforms texts .int32) :
    (charAt.call receiver [a]).Safe texts fun v => v.Conforms texts .char :=
  Safe.bind (asInt32_safe ha) fun index _ => charIn_safe receiver index

theorem indexOf_safe (hr : receiver.Conforms texts .string)
    (ha : a.Conforms texts .string ∨ a.Conforms texts .char) :
    (indexOf.call receiver [a]).Safe texts fun v => v.Conforms texts .int32 := by
  refine Safe.bind (asText_safe hr) fun s _ => ?_
  rcases ha with ha | ha
  · rcases ha.string with rfl | ⟨t, rfl⟩
    · exact .error .nullReference
    · exact .ok (placeOf_conforms _ _)
  · obtain ⟨c, rfl⟩ := ha.char
    exact .ok (placeOf_conforms _ _)

theorem substring_safe {lengths : List Value} (hr : receiver.Conforms texts .string)
    (ha : a.Conforms texts .int32) (hl : ∀ l ∈ lengths, l.Conforms texts .int32) :
    (substring.call receiver (a :: lengths)).Safe texts fun v => v.Conforms texts .string := by
  refine Safe.bind (asText_safe hr) fun s _ => Safe.bind (asInt32_safe ha) fun start _ => ?_
  split
  · exact .error .indexOutOfRange
  · cases lengths with
    | nil => exact slice_safe _ _ _
    | cons l _ =>
        exact Safe.bind (some_asInt32_safe (hl l (by simp))) fun length _ =>
          slice_safe s.toList start length

/-- Texts replace texts, and characters characters. -/
theorem replace_safe (hr : receiver.Conforms texts .string)
    (h : a.Conforms texts .string ∧ b.Conforms texts .string ∨
      a.Conforms texts .char ∧ b.Conforms texts .char) :
    (replace.call receiver [a, b]).Safe texts fun v => v.Conforms texts .string := by
  refine Safe.bind (asText_safe hr) fun s _ => ?_
  rcases h with ⟨ha, hb⟩ | ⟨ha, hb⟩
  · rcases ha.string with rfl | ⟨old, rfl⟩
    · exact .error .nullReference
    · show (replaceIn s (.string old) b).Safe texts _
      simp only [replaceIn]
      refine Safe.bind (asText_safe ha) fun old _ => ?_
      split
      · exact .error (.invalidArgument _)
      · rcases hb.string with rfl | ⟨new, rfl⟩
        · exact .ok (.scalar rfl rfl rfl)
        · exact .ok (.scalar rfl rfl rfl)
  · obtain ⟨old, rfl⟩ := ha.char
    obtain ⟨new, rfl⟩ := hb.char
    exact .ok (.scalar rfl rfl rfl)

theorem compareValues_safe (ha : a.Conforms texts .string) (hb : b.Conforms texts .string) :
    (compareValues a b).Safe texts fun _ => True := by
  rcases ha.string with rfl | ⟨s, rfl⟩
  · rcases hb.string with rfl | ⟨t, rfl⟩
    · exact .ok trivial
    · exact .ok trivial
  · rcases hb.string with rfl | ⟨t, rfl⟩
    · exact .ok trivial
    · exact .ok trivial

theorem compare_safe (receiver : Value) (ha : a.Conforms texts .string)
    (hb : b.Conforms texts .string) :
    (compare.call receiver [a, b]).Safe texts fun v => v.Conforms texts .int32 := by
  show (compareValues a b >>= fun o => .ok (Value.int32 (orderNumber o))).Safe texts _
  exact Safe.bind (compareValues_safe ha hb) fun _ _ => .ok (.scalar rfl rfl rfl)

theorem isNullOrEmpty_safe (receiver : Value) (ha : a.Conforms texts .string) :
    (isNullOrEmpty.call receiver [a]).Safe texts fun v => v.Conforms texts .boolean := by
  rcases ha.string with rfl | ⟨s, rfl⟩
  · exact .ok (.scalar rfl rfl rfl)
  · exact .ok (.scalar rfl rfl rfl)

end StringMethod

namespace Catalog

theorem objectMethods_sound : ∀ m ∈ objectMethods, m.Sound texts .object := by
  simp only [objectMethods, List.forall_mem_cons, List.not_mem_nil, false_implies, implies_true,
    and_true]
  refine ⟨?_, ?_, ?_⟩
  · exact onInstance_sound fun _ _ => .ok (.scalar rfl rfl rfl)
  · exact onInstance_sound fun _ _ _ _ => .ok (.scalar rfl rfl rfl)
  · exact onInstance_sound fun _ _ => .ok (.scalar rfl rfl rfl)

open StringMethod in
theorem stringMethods_sound : ∀ m ∈ stringMethods, m.Sound texts .string := by
  simp only [stringMethods, List.forall_mem_cons, List.not_mem_nil, false_implies, implies_true,
    and_true]
  refine ⟨onInstance_sound fun _ hr _ ha => onTexts_safe hr ha fun _ _ => .scalar rfl rfl rfl,
    onInstance_sound fun _ hr _ ha => onTexts_safe hr ha fun _ _ => .scalar rfl rfl rfl,
    onInstance_sound fun _ hr _ ha => onTexts_safe hr ha fun _ _ => .scalar rfl rfl rfl,
    onInstance_sound fun _ hr _ ha => indexOf_safe hr (.inl ha),
    onInstance_sound fun _ hr _ ha => indexOf_safe hr (.inr ha),
    onInstance_sound fun _ hr _ ha => substring_safe hr ha (by simp),
    onInstance_sound fun _ hr _ ha _ hl => substring_safe hr ha (by simpa using hl),
    onInstance_sound fun _ hr => onText_safe hr fun _ => .scalar rfl rfl rfl,
    onInstance_sound fun _ hr => onText_safe hr fun _ => .scalar rfl rfl rfl,
    onInstance_sound fun _ hr => onText_safe hr fun _ => .scalar rfl rfl rfl,
    onInstance_sound fun _ hr _ ha _ hb => replace_safe hr (.inl ⟨ha, hb⟩),
    onInstance_sound fun _ hr _ ha _ hb => replace_safe hr (.inr ⟨ha, hb⟩),
    onType_sound fun _ _ _ _ _ => .ok (.scalar rfl rfl rfl),
    onType_sound fun _ _ _ _ _ => .ok (.scalar rfl rfl rfl),
    onType_sound fun r _ ha _ hb => compare_safe r ha hb,
    onType_sound fun r _ ha => isNullOrEmpty_safe r ha⟩

end Catalog

/-! ## Characters -/

theorem CharMethod.call_safe (m : CharMethod) (ha : a.Conforms texts .char) :
    (m.call [a]).Safe texts fun v =>
      v.Conforms texts (if m = toUpper ∨ m = toLower then .char else .boolean) := by
  refine Safe.bind (asChar_safe ha) fun c _ => ?_
  cases m with
  | toUpper | toLower => exact .ok (.scalar rfl rfl rfl)
  | isDigit | isLetter | isWhiteSpace | isUpper | isLower => exact .ok (.scalar rfl rfl rfl)

theorem Catalog.charMethods_sound : ∀ m ∈ charMethods, m.Sound texts .char := by
  simp only [charMethods, List.forall_mem_cons, List.not_mem_nil, false_implies, implies_true,
    and_true]
  exact ⟨onType_sound fun _ _ ha => CharMethod.call_safe .isDigit ha,
    onType_sound fun _ _ ha => CharMethod.call_safe .isLetter ha,
    onType_sound fun _ _ ha => CharMethod.call_safe .isWhiteSpace ha,
    onType_sound fun _ _ ha => CharMethod.call_safe .isUpper ha,
    onType_sound fun _ _ ha => CharMethod.call_safe .isLower ha,
    onType_sound fun _ _ ha => CharMethod.call_safe .toUpper ha,
    onType_sound fun _ _ ha => CharMethod.call_safe .toLower ha,
    parse_sound⟩

/-! ## Numbers -/

namespace MathMethod

/-- A double made of a number. -/
theorem onFloat_safe (f : Float → Float) (v : Value) :
    (v.asFloat >>= fun x => .ok (Value.double (f x))).Safe texts
      fun u => u.Conforms texts .double :=
  Safe.bind (asFloat_safe v) fun _ _ => .ok (.scalar rfl rfl rfl)

/-- Types of numbers have absolute values, if they have negative numbers. -/
theorem abs_safe {t : Ty}
    (ht : t ∈ [.sbyte, .int16, .int32, .int64, .single, .double, .decimal])
    (ha : a.Conforms texts t) : (abs.call [a]).Safe texts fun v => v.Conforms texts t := by
  show (absolute a).Safe texts _
  have word {k : IntKind} (hk : k.isSigned) (ha : a.Conforms texts (.integer k)) :
      (absolute a).Safe texts fun v => v.Conforms texts (.integer k) := by
    obtain ⟨w, rfl⟩ := ha.integer
    simp only [absolute, hk, if_true]
    exact Safe.ofMap .overflow fun w => .scalar rfl rfl rfl
  simp only [List.mem_cons, List.not_mem_nil, or_false] at ht
  rcases ht with rfl | rfl | rfl | rfl | rfl | rfl | rfl
  · exact word rfl ha
  · exact word rfl ha
  · exact word rfl ha
  · exact word rfl ha
  · obtain ⟨x, rfl⟩ := ha.single
    exact .ok (.scalar rfl rfl rfl)
  · obtain ⟨x, rfl⟩ := ha.double
    exact .ok (.scalar rfl rfl rfl)
  · obtain ⟨d, rfl⟩ := ha.decimal
    exact .ok (.scalar rfl rfl rfl)

/-- The greater or the less of two values is one of them. -/
theorem extreme_safe {t : Ty} (keep : Ordering) (ha : a.Conforms texts t)
    (hb : b.Conforms texts t) : (extreme keep a b).Safe texts fun v => v.Conforms texts t := by
  simp only [extreme]
  split
  · exact .ok ha
  · split
    · exact .ok hb
    · refine Safe.bind (Safe.ofOption (.invalidCast _ _) fun _ _ => trivial) fun o (_ : True) => ?_
      refine .ok ?_
      split
      · exact ha
      · exact hb

theorem roundTo_safe (x : Float) (digits : Int) :
    (roundTo x digits).Safe texts fun v => v.Conforms texts .double := by
  simp only [roundTo]
  split
  · exact .error (.invalidArgument _)
  · exact .ok (.scalar rfl rfl rfl)

theorem round_safe {digits : List Value} (hd : ∀ d ∈ digits, d.Conforms texts .int32) :
    (round.call (a :: digits)).Safe texts fun v => v.Conforms texts .double := by
  refine Safe.bind (asFloat_safe a) fun x _ => ?_
  cases digits with
  | nil => exact roundTo_safe x 0
  | cons d _ =>
      exact Safe.bind (some_asInt32_safe (hd d (by simp))) fun n _ => roundTo_safe x (n.getD 0)

end MathMethod

open MathMethod in
theorem Catalog.mathMethods_sound : ∀ m ∈ mathMethods, m.Sound texts .math := by
  simp only [mathMethods, List.forall_mem_append, List.forall_mem_cons, List.not_mem_nil,
    false_implies, implies_true, and_true]
  refine ⟨⟨⟨?_, ?_⟩, ?_⟩, ?_⟩
  · exact overloads_sound fun _ ht _ _ ha => abs_safe ht ha
  · exact overloads_sound fun _ _ _ _ ha _ hb => extreme_safe .gt ha hb
  · exact overloads_sound fun _ _ _ _ ha _ hb => extreme_safe .lt ha hb
  · exact ⟨onType_sound fun _ _ _ => round_safe (by simp),
      onType_sound fun _ _ _ _ hd => round_safe (by simpa using hd),
      onType_sound fun _ x _ => onFloat_safe _ x,
      onType_sound fun _ x _ => onFloat_safe _ x,
      onType_sound fun _ x _ => onFloat_safe _ x,
      onType_sound fun _ x _ => onFloat_safe _ x,
      onType_sound fun _ x _ y _ => Safe.bind (asFloat_safe x) fun _ _ => onFloat_safe _ y⟩

namespace ConvertMethod

theorem nearestInt_safe (x : Float) : (nearestInt x).Safe texts fun _ => True := by
  simp only [nearestInt]
  split
  · exact .error .overflow
  · exact .ok trivial

theorem toWord_safe (k : IntKind) (v : Value) :
    (toWord k v).Safe texts fun u => u.Conforms texts (.integer k) := by
  have known : (toIntegral v).Safe texts fun _ => True := by
    unfold toIntegral
    split
    · exact .ok trivial
    · exact .ok trivial
    · exact Safe.ofOption (.invalidFormat _) fun _ _ => trivial
    · exact nearestInt_safe _
    · exact nearestInt_safe _
    · exact .ok trivial
    · exact Safe.ofOption (.invalidCast _ _) fun _ _ => trivial
  exact Safe.bind known fun n _ => Safe.ofMap .overflow fun w => .scalar rfl rfl rfl

theorem argument_of_one (v : Value) : argument [v] 0 = pure v := rfl

theorem toDouble_safe (v : Value) :
    (toDouble.call [v]).Safe texts fun u => u.Conforms texts .double := by
  simp only [call, argument_of_one, pure_bind]
  cases v with
  | null => exact .ok (.scalar rfl rfl rfl)
  | string s => exact read_safe s .double
  | _ => exact Safe.bind (asFloat_safe _) fun _ _ => .ok (.scalar rfl rfl rfl)

theorem toDecimal_safe (v : Value) :
    (toDecimal.call [v]).Safe texts fun u => u.Conforms texts .decimal := by
  simp only [call, argument_of_one, pure_bind]
  cases v with
  | null => exact .ok (.scalar rfl rfl rfl)
  | string s => exact read_safe s .decimal
  | _ => exact Safe.ofMap .overflow fun d => .scalar rfl rfl rfl

theorem toBoolean_safe (h : a.Conforms texts .string ∨ a.Conforms texts .int32) :
    (toBoolean.call [a]).Safe texts fun u => u.Conforms texts .boolean := by
  simp only [call, argument_of_one, pure_bind]
  rcases h with h | h
  · rcases h.string with rfl | ⟨s, rfl⟩
    · exact .ok (.scalar rfl rfl rfl)
    · exact Safe.bind (asText_safe h) fun s _ => read_safe s .boolean
  · obtain ⟨w, rfl⟩ := h.integer
    exact .ok (.scalar rfl rfl rfl)

end ConvertMethod

namespace Catalog

theorem conversion_sound {owner result : Ty} {name : String} {m : ConvertMethod}
    {sources : List Ty} (h : ∀ t ∈ sources, ∀ v : Value, v.Conforms texts t →
      (m.call [v]).Safe texts fun u => u.Conforms texts result) :
    ∀ n ∈ convertMethods.conversion name result m sources, n.Sound texts owner := by
  intro n hn
  obtain ⟨t, ht, rfl⟩ := List.mem_map.mp hn
  exact onType_sound fun _ v hv => h t ht v hv

open ConvertMethod in
theorem convertMethods_sound : ∀ m ∈ convertMethods, m.Sound texts .convert := by
  simp only [convertMethods, List.forall_mem_append]
  refine ⟨⟨⟨⟨⟨?_, ?_⟩, ?_⟩, ?_⟩, ?_⟩, ?_⟩
  · exact conversion_sound fun _ _ v _ => toWord_safe .int32 v
  · exact conversion_sound fun _ _ v _ => toWord_safe .int64 v
  · exact conversion_sound fun _ _ v _ => toDouble_safe v
  · exact conversion_sound fun _ _ v _ => toDecimal_safe v
  · exact conversion_sound fun _ _ v _ => .ok (.scalar rfl rfl rfl)
  · refine conversion_sound fun t ht v hv => toBoolean_safe ?_
    simp only [List.mem_cons, List.not_mem_nil, or_false] at ht
    rcases ht with rfl | rfl
    · exact .inl hv
    · exact .inr hv

end Catalog
end TypedExpr
