import TypedExpr.Eval.NumberMembers
import TypedExpr.Proofs.Equality
import TypedExpr.Proofs.Integer
import TypedExpr.Proofs.Widening

/-! # The order of values

Values of one type are compared by a key: an integer, a text in small letters with the text itself,
a day with a second and a nanosecond. So each type that has an order is ordered in a line, and two
of its values are in one place of the line just when they are equal. Binary numbers are in the line
unless they are no number.
-/

namespace TypedExpr

/-! ## Orders of contents -/

instance : Std.TransCmp Text.compareTexts :=
  inferInstanceAs (Std.TransCmp (compareLex (compareOn Text.toLowercase) fun a b => compare b a))

/-- Texts that are equal in small letters are in one place only if they are equal themselves. -/
instance : Std.LawfulEqCmp Text.compareTexts where
  eq_of_compare := by
    intro a b h
    have letters := (Ordering.then_eq_eq.mp h).2
    exact (Std.LawfulEqCmp.eq_of_compare letters).symm

/-- The order ignores case first, and then has the later text before the earlier one. -/
theorem Text.compareTexts_eq_lt {a b : String} : Text.compareTexts a b = .lt ↔
    toLowercase a < toLowercase b ∨ toLowercase a = toLowercase b ∧ b < a := by
  rw [compareTexts, Ordering.then_eq_lt, compare_lt_iff_lt, compare_eq_iff_eq, compare_lt_iff_lt]

instance : Std.TransCmp Decimal.compare :=
  inferInstanceAs (Std.TransCmp (compareOn Decimal.units))

instance : Std.TransCmp DateTime.compare :=
  inferInstanceAs (Std.TransCmp (compareLex (compareOn DateTime.day)
    (compareLex (compareOn DateTime.second) (compareOn DateTime.nano))))

instance : Std.LawfulEqCmp DateTime.compare where
  eq_of_compare := by
    intro t u h
    obtain ⟨day, time⟩ := Ordering.then_eq_eq.mp h
    obtain ⟨second, nano⟩ := Ordering.then_eq_eq.mp time
    obtain ⟨_, _, _, _, _, _, _⟩ := t
    obtain ⟨_, _, _, _, _, _, _⟩ := u
    cases Std.LawfulEqCmp.eq_of_compare day
    cases Std.LawfulEqCmp.eq_of_compare second
    cases Std.LawfulEqCmp.eq_of_compare nano
    rfl

/-- A key that tells all things apart orders them so that no two are in one place. -/
theorem lawfulEqCmp_of_injective {α β : Type} [Ord β] [Std.LawfulEqOrd β] (key : α → β)
    (h : key.Injective) : Std.LawfulEqCmp (compareOn key) where
  compare_self {a} := (Std.ReflCmp.compare_self : compare (key a) (key a) = .eq)
  eq_of_compare same := h (Std.LawfulEqCmp.eq_of_compare same)

instance : Std.TransCmp Guid.compare := inferInstanceAs (Std.TransCmp (compareOn Guid.bits))

instance : Std.LawfulEqCmp Guid.compare :=
  lawfulEqCmp_of_injective Guid.bits fun g h same => by
    cases g
    cases h
    cases same
    rfl

instance : Std.LawfulEqCmp (compareOn TimeSpan.nanos) :=
  lawfulEqCmp_of_injective TimeSpan.nanos fun s t same => by
    cases s
    cases t
    cases same
    rfl

namespace Value

theorem eq_null {v : Value} (h : v.isNull) : v = .null := by
  cases v with
  | null => rfl
  | _ => cases h

/-! ## One place for each value -/

/-- The one value is not after the other. -/
def atMost (a b : Value) : Bool := (a.compare? b).any Ordering.isLE

/-- The values that belong are ordered in a line, in which equal values share a place. -/
structure TotalOn (belongs : Value → Prop) : Prop where
  defined : ∀ {a b}, belongs a → belongs b → ∃ o, a.compare? b = some o
  reversed : ∀ {a b}, belongs a → belongs b → b.compare? a = (a.compare? b).map Ordering.swap
  trans : ∀ {a b c}, belongs a → belongs b → belongs c → a.atMost b → b.atMost c → a.atMost c
  tie : ∀ {a b}, belongs a → belongs b → (a.compare? b = some .eq ↔ a == b)

theorem TotalOn.mono {belongs fewer : Value → Prop} (total : TotalOn belongs)
    (h : ∀ v, fewer v → belongs v) : TotalOn fewer where
  defined ha hb := total.defined (h _ ha) (h _ hb)
  reversed ha hb := total.reversed (h _ ha) (h _ hb)
  trans ha hb hc := total.trans (h _ ha) (h _ hb) (h _ hc)
  tie ha hb := total.tie (h _ ha) (h _ hb)

/-- Values that show a key are ordered as their keys are. -/
theorem TotalOn.of_key {α : Type} (cmp : α → α → Ordering) [Std.TransCmp cmp]
    [Std.LawfulEqCmp cmp] {belongs : Value → Prop} (Shows : Value → α → Prop)
    (shown : ∀ v, belongs v → ∃ x, Shows v x)
    (compared : ∀ {v w x y}, Shows v x → Shows w y → v.compare? w = some (cmp x y))
    (equal : ∀ {v w x y}, Shows v x → Shows w y → (v == w ↔ x = y)) : TotalOn belongs where
  defined ha hb := by
    obtain ⟨x, hx⟩ := shown _ ha
    obtain ⟨y, hy⟩ := shown _ hb
    exact ⟨_, compared hx hy⟩
  reversed ha hb := by
    obtain ⟨x, hx⟩ := shown _ ha
    obtain ⟨y, hy⟩ := shown _ hb
    rw [compared hx hy, compared hy hx, Option.map_some, ← Std.OrientedCmp.eq_swap]
  trans ha hb hc hab hbc := by
    obtain ⟨x, hx⟩ := shown _ ha
    obtain ⟨y, hy⟩ := shown _ hb
    obtain ⟨z, hz⟩ := shown _ hc
    simp only [atMost, compared hx hy, compared hy hz, compared hx hz, Option.any_some] at *
    exact Std.TransCmp.isLE_trans hab hbc
  tie ha hb := by
    obtain ⟨x, hx⟩ := shown _ ha
    obtain ⟨y, hy⟩ := shown _ hb
    rw [compared hx hy, Option.some_inj, Std.LawfulEqCmp.compare_eq_iff_eq, equal hx hy]

end Value

/-! ## The types with an order -/

/-- The types all whose values are in order. -/
def Ty.isLinear : Ty → Bool
  | .boolean | .char | .string | .integer _ | .decimal | .dateTime | .timeSpan | .guid
  | .enum _ => true
  | _ => false

/-- The types whose values are in order, but for those that are no number. -/
def Ty.isScale (t : Ty) : Bool := t.isLinear || t = .single || t = .double

namespace Value

open MathMethod (isNaN)

/-- The value is of the type, and if it is a binary one it is a number. -/
def OnScale (t : Ty) (v : Value) : Prop := v.typeOf = t ∧ isNaN v = false

theorem beq_iff {a b : Value} : a == b ↔ a.canonical = b.canonical := same_iff a b

theorem TotalOn.of_make {α : Type} {t : Ty} (cmp : α → α → Ordering) [Std.TransCmp cmp]
    [Std.LawfulEqCmp cmp] (make : α → Value) (shown : ∀ v, v.typeOf = t → ∃ x, v = make x)
    (compared : ∀ x y, (make x).compare? (make y) = some (cmp x y))
    (equal : ∀ x y, (make x).canonical = (make y).canonical → x = y) : TotalOn (OnScale t) := by
  refine .of_key cmp (fun v x => v = make x) (fun v h => shown v h.1) ?_ ?_
  · rintro _ _ x y rfl rfl
    exact compared x y
  · rintro _ _ x y rfl rfl
    rw [beq_iff]
    exact ⟨equal x y, fun h => h ▸ rfl⟩

/-- Characters, integers and members of an enumeration are ordered as integers. -/
theorem TotalOn.of_toInt {t : Ty} (shown : ∀ v : Value, v.typeOf = t → ∃ n, v.toInt? = some n) :
    TotalOn (OnScale t) := by
  refine .of_key compare (fun v n => v.typeOf = t ∧ v.toInt? = some n) ?_ ?_ ?_
  · rintro v ⟨type, -⟩
    obtain ⟨n, number⟩ := shown v type
    exact ⟨n, type, number⟩
  · rintro v w m n ⟨rfl, hv⟩ ⟨type, hw⟩
    cases v <;> cases w <;> cases hv <;> cases hw <;> rfl
  · rintro v w m n ⟨rfl, hv⟩ ⟨type, hw⟩
    rw [beq_iff]
    cases v <;> cases w <;> cases hv <;> cases hw <;> cases type <;>
      simp [canonical, IntKind.Word.val_inj, Char.toNat_inj]

theorem totalOn_decimal : TotalOn (OnScale .decimal) := by
  refine .of_key compare (fun v n => ∃ d, v = decimal d ∧ d.units = n) ?_ ?_ ?_
  · rintro v ⟨type, -⟩
    cases v <;> cases type
    exact ⟨_, _, rfl, rfl⟩
  · rintro _ _ _ _ ⟨d, rfl, rfl⟩ ⟨e, rfl, rfl⟩
    rfl
  · rintro _ _ _ _ ⟨d, rfl, rfl⟩ ⟨e, rfl, rfl⟩
    simp [beq_iff, canonical]

theorem totalOn_double : TotalOn (OnScale .double) := by
  refine .of_key compare
    (fun v n => ∃ x, v = double x ∧ Binary.floatKey? x = some n) ?_ ?_ ?_
  · rintro v ⟨type, number⟩
    cases v <;> cases type
    rename_i x
    cases key : Binary.floatKey? x with
    | none => simp [isNaN, key] at number
    | some n => exact ⟨n, x, rfl, key⟩
  · rintro _ _ _ _ ⟨x, rfl, hx⟩ ⟨y, rfl, hy⟩
    change Binary.compareFloat? x y = _
    rw [Binary.compareFloat?, hx, hy]
    rfl
  · rintro _ _ _ _ ⟨x, rfl, hx⟩ ⟨y, rfl, hy⟩
    simp [beq_iff, canonical, hx, hy]

/-- Single numbers are compared as double ones, and that is their own order. -/
theorem totalOn_single : TotalOn (OnScale .single) := by
  refine .of_key compare
    (fun v n => ∃ x, v = single x ∧ Binary.float32Key? x = some n) ?_ ?_ ?_
  · rintro v ⟨type, number⟩
    cases v <;> cases type
    rename_i x
    cases key : Binary.float32Key? x with
    | none => simp [isNaN, key] at number
    | some n => exact ⟨n, x, rfl, key⟩
  · rintro _ _ _ _ ⟨x, rfl, hx⟩ ⟨y, rfl, hy⟩
    change Binary.compareFloat? (Binary.widen x) (Binary.widen y) = _
    rw [Binary.compareFloat?_widen, hx, hy]
    rfl
  · rintro _ _ _ _ ⟨x, rfl, hx⟩ ⟨y, rfl, hy⟩
    simp [beq_iff, canonical, hx, hy]

theorem totalOn_predefined {p : Predefined} (h : (Ty.predefined p).isLinear) :
    TotalOn (OnScale (.predefined p)) := by
  cases p with
  | boolean =>
      refine .of_make compare boolean ?_ (fun _ _ => rfl) ?_
      · intro v type
        cases v <;> cases type
        exact ⟨_, rfl⟩
      · intro b c h
        exact Canonical.boolean.inj h
  | char | integer =>
      refine .of_toInt ?_
      intro v type
      cases v <;> cases type
      exact ⟨_, rfl⟩
  | string =>
      refine .of_make Text.compareTexts string ?_ (fun _ _ => rfl) ?_
      · intro v type
        cases v <;> cases type
        exact ⟨_, rfl⟩
      · intro s t h
        exact Canonical.string.inj h
  | decimal => exact totalOn_decimal
  | dateTime =>
      refine .of_make DateTime.compare dateTime ?_ (fun _ _ => rfl) ?_
      · intro v type
        cases v <;> cases type
        exact ⟨_, rfl⟩
      · intro t u h
        exact Canonical.dateTime.inj h
  | timeSpan =>
      refine .of_make (compareOn TimeSpan.nanos) timeSpan ?_ (fun _ _ => rfl) ?_
      · intro v type
        cases v <;> cases type
        exact ⟨_, rfl⟩
      · intro s t h
        exact Canonical.timeSpan.inj h
  | guid =>
      refine .of_make Guid.compare guid ?_ (fun _ _ => rfl) ?_
      · intro v type
        cases v <;> cases type
        exact ⟨_, rfl⟩
      · intro g h same
        exact Canonical.guid.inj same
  | _ => cases h

theorem totalOn_linear {t : Ty} (h : t.isLinear) : TotalOn (OnScale t) := by
  cases t with
  | predefined p => exact totalOn_predefined h
  | enum e =>
      refine .of_toInt ?_
      intro v type
      cases v <;> cases type
      exact ⟨_, rfl⟩
  | _ => cases h

theorem totalOn_scale {t : Ty} (h : t.isScale) : TotalOn (OnScale t) := by
  simp only [Ty.isScale, Bool.or_eq_true, decide_eq_true_eq] at h
  rcases h with (linear | rfl) | rfl
  · exact totalOn_linear linear
  · exact totalOn_single
  · exact totalOn_double

/-- A value of a linear type is always in order. -/
theorem onScale_of_linear {t : Ty} (h : t.isLinear) {v : Value} (type : v.typeOf = t) :
    OnScale t v := by
  refine ⟨type, ?_⟩
  subst type
  cases v <;> first | rfl | cases h

/-- The values of each linear type are in a total order that agrees with equality. Texts are so as
they are ordered without regard to case first, and among those that differ in case only by their
characters backward. -/
theorem ordered_linear :
    (∀ t : Ty, t.isLinear → TotalOn fun v => v.typeOf = t) ∧
      (∀ a b, (string a).compare? (string b) = some (Text.compareTexts a b)) ∧
      ∀ a b, Text.compareTexts a b = .lt ↔ Text.toLowercase a < Text.toLowercase b ∨
        Text.toLowercase a = Text.toLowercase b ∧ b < a := by
  refine ⟨?_, fun _ _ => rfl, fun _ _ => Text.compareTexts_eq_lt⟩
  intro t h
  exact (totalOn_linear h).mono fun _ type => onScale_of_linear h type

/-- Small letters come before capitals, between the letters around them. -/
theorem ordered_linear_small_letters :
    (string "ä").compare? (string "Ä") = some .lt ∧ (string "Ä").compare? (string "ä") = some .gt ∧
      (string "a").atMost (string "ä") ∧ (string "a").atMost (string "Ä") := by
  have total := ordered_linear.1 .string rfl
  have small : (string "ä").compare? (string "Ä") = some .lt := by decide +kernel
  have first : (string "a").atMost (string "ä") := by decide +kernel
  have capital : (string "ä").atMost (string "Ä") := by
    rw [atMost, small]
    rfl
  refine ⟨small, ?_, first, total.trans rfl rfl rfl first capital⟩
  rw [total.reversed (a := string "ä") rfl rfl, small]
  rfl

/-! ## Comparison the other way round -/

theorem compareFloat?_swap (x y : Float) :
    Binary.compareFloat? y x = (Binary.compareFloat? x y).map Ordering.swap := by
  unfold Binary.compareFloat?
  cases Binary.floatKey? x with
  | none => cases Binary.floatKey? y <;> rfl
  | some k =>
      cases Binary.floatKey? y with
      | none => rfl
      | some l => exact congrArg some Std.OrientedCmp.eq_swap

theorem compareNumbers?_swap (a b : Value) :
    b.compareNumbers? a = (a.compareNumbers? b).map Ordering.swap := by
  unfold compareNumbers?
  rw [Bool.or_comm b.isDecimal, Bool.or_comm b.isBinary]
  split
  · cases a.toDecimal? with
    | none => cases b.toDecimal? <;> rfl
    | some d =>
        cases b.toDecimal? with
        | none => rfl
        | some e => exact congrArg some Std.OrientedCmp.eq_swap
  · split
    · cases a.toFloat? with
      | none => cases b.toFloat? <;> rfl
      | some x =>
          cases b.toFloat? with
          | none => rfl
          | some y => exact compareFloat?_swap x y
    · cases a.toInt? with
      | none => cases b.toInt? <;> rfl
      | some m =>
          cases b.toInt? with
          | none => rfl
          | some n => exact congrArg some Std.OrientedCmp.eq_swap

/-- Whatever two values are, they are compared the other way round with the opposite outcome, or
both ways without one. -/
theorem compare?_swap (a b : Value) : b.compare? a = (a.compare? b).map Ordering.swap := by
  cases a <;> cases b <;>
    first
    | exact compareNumbers?_swap _ _
    | exact congrArg some Std.OrientedCmp.eq_swap

end Value

end TypedExpr
