import TypedExpr.Proofs.SafeOperators

/-! # Operations on sequences are safe

The items of what conforms to a collection conform to its elements, so that the selector may be
called with each of them. What an operation gathers on its way through the items has a type of its
own, which each step keeps.
-/

namespace TypedExpr

open Outcome Value

variable {texts : Prop} {v : Value} {t : Ty}

theorem Value.itemsOf_safe {e : Ty} (h : v.Conforms texts t) (he : t.elementType? = some e) :
    v.itemsOf.Safe texts fun items => ∀ u ∈ items, u.Conforms texts e := by
  rcases h.items he with rfl | ⟨items, hitems, h⟩ | ⟨-, s, rfl⟩
  · exact .error .nullReference
  · unfold itemsOf
    split
    · exact .error .nullReference
    · rw [hitems]
      exact .ok h
  · exact .error (.invalidCast _ _)

namespace AggregateOp

namespace Selection

variable {s : Selection} {items : List Value}

/-- The selector is safe on all of the items. -/
def SafeOn (texts : Prop) (s : Selection) (items : List Value) : Prop :=
  ∀ v ∈ items, (s.select v).Safe texts fun u => u.Conforms texts s.ty

theorem SafeOn.tail (h : s.SafeOn texts (v :: items)) : s.SafeOn texts items :=
  fun u hu => h u (List.mem_cons_of_mem v hu)

theorem holds_safe (hs : s.ty = .boolean) (h : s.SafeOn texts (v :: items)) :
    (s.holds v).Safe texts fun _ => True :=
  Safe.bind (h v List.mem_cons_self) fun u hu =>
    Safe.bind (truth?_safe (by rw [hs]; rfl) hu) fun _ _ => .ok trivial

theorem keep_safe (hs : s.ty = .boolean) (h : s.SafeOn texts items) :
    (s.keep items).Safe texts fun kept => ∀ u ∈ kept, u ∈ items := by
  induction items with
  | nil => exact .ok fun _ hu => hu
  | cons v vs ih =>
      refine Safe.bind (holds_safe hs h) fun holds _ => ?_
      refine Safe.bind (ih h.tail) fun rest hrest => .ok ?_
      intro u hu
      split at hu
      · rcases List.mem_cons.mp hu with rfl | hu
        · exact List.mem_cons_self
        · exact List.mem_cons_of_mem v (hrest u hu)
      · exact List.mem_cons_of_mem v (hrest u hu)

theorem meets_safe (answer : Bool) (hs : s.ty = .boolean) (h : s.SafeOn texts items) :
    (s.meets answer items).Safe texts fun _ => True := by
  induction items with
  | nil => exact .ok trivial
  | cons v vs ih =>
      refine Safe.bind (holds_safe hs h) fun holds _ => ?_
      split
      · exact .ok trivial
      · exact ih h.tail

/-- What each result that is not null keeps is kept by all of them. -/
theorem foldResults_safe {α : Type} {I : α → Prop} {f : α → Value → Outcome α} {start : α}
    (h : s.SafeOn texts items) (hstart : I start)
    (step : ∀ a u, I a → u.Conforms texts s.ty → u.isNull = false → (f a u).Safe texts I) :
    (s.foldResults f start items).Safe texts I := by
  induction items generalizing start with
  | nil => exact .ok hstart
  | cons v vs ih =>
      refine Safe.bind (h v List.mem_cons_self) fun u hu => ?_
      dsimp only
      split
      · exact ih h.tail hstart
      · rename_i present
        exact Safe.bind (step start u hstart hu (by simpa using present)) fun a ha => ih h.tail ha

end Selection

theorem countOf_safe (n : Nat) : (countOf n).Safe texts fun v => v.Conforms texts .int32 :=
  Safe.ofMap .overflow fun _ => .scalar rfl rfl rfl

/-! ## Least, greatest and total results -/

variable {s : Selection} {items : List Value}

theorem moreExtreme_conforms {side : Ordering} {best : Option Value} {u w : Value}
    (hbest : ∀ b ∈ best, b.Conforms texts t) (hu : u.Conforms texts t)
    (hw : moreExtreme side best u = some w) : w.Conforms texts t := by
  unfold moreExtreme at hw
  split at hw
  · split at hw
    · cases hw
      exact hu
    · cases hw
      exact hbest _ rfl
  · cases hw
    exact hu

theorem extremeOf_safe (side : Ordering) (h : s.SafeOn texts items) :
    (extremeOf s side items).Safe texts fun v => v.Conforms texts s.ty := by
  refine Safe.bind (P := fun best => ∀ b ∈ best, b.Conforms texts s.ty) ?_ fun best hbest => ?_
  · exact Selection.foldResults_safe h (by simp) fun best u hbest hu _ =>
      .ok fun w hw => moreExtreme_conforms hbest hu hw
  · split
    · exact .ok (hbest _ rfl)
    · split
      · rename_i hasNull
        simp only [Bool.or_eq_true, Bool.not_eq_true'] at hasNull
        exact .ok (.null hasNull)
      · exact .error .emptySequence

/-- A type whose values are added up. -/
def sums (t : Ty) : Bool :=
  match t with
  | .int32 | .int64 | .single | .double | .decimal => true
  | _ => false

theorem sumOf_safe {a b : Value} (ht : sums t) (ha : a.Conforms texts t)
    (hb : b.Conforms texts t) : (sumOf a b).Safe texts fun v => v.Conforms texts t := by
  unfold sums at ht
  split at ht
  · obtain ⟨m, rfl⟩ := ha.integer
    obtain ⟨n, rfl⟩ := hb.integer
    exact Safe.ofMap .overflow fun _ => .scalar rfl rfl rfl
  · obtain ⟨m, rfl⟩ := ha.integer
    obtain ⟨n, rfl⟩ := hb.integer
    exact Safe.ofMap .overflow fun _ => .scalar rfl rfl rfl
  · obtain ⟨x, rfl⟩ := ha.single
    obtain ⟨y, rfl⟩ := hb.single
    exact .ok (.scalar rfl rfl rfl)
  · obtain ⟨x, rfl⟩ := ha.double
    obtain ⟨y, rfl⟩ := hb.double
    exact .ok (.scalar rfl rfl rfl)
  · obtain ⟨x, rfl⟩ := ha.decimal
    obtain ⟨y, rfl⟩ := hb.decimal
    exact Safe.ofMap .overflow fun _ => .scalar rfl rfl rfl
  · cases ht

theorem defaultOf_conforms (ht : sums t) : (defaultOf t).Conforms texts t := by
  unfold sums at ht
  split at ht
  all_goals first
    | exact .scalar rfl rfl rfl
    | cases ht

theorem operands_sum {op : AggregateOp} (hop : op = .sum ∨ op = .average)
    (h : [t] ∈ op.operands) : t.isValueType ∧ sums t.nonNullable := by
  have checked :
      op.operands.all (OperatorClass.onOne fun t => t.isValueType && sums t.nonNullable) := by
    rcases hop with rfl | rfl
    · rfl
    · rfl
  simpa [OperatorClass.onOne] using List.all_eq_true.mp checked [t] h

/-- A sum starts from zero and stays within the type of the results, null apart. -/
theorem sum_safe (h : s.SafeOn texts items) (hs : s.ty.isValueType) (ht : sums s.ty.nonNullable) :
    (s.foldResults sumOf (defaultOf s.ty.nonNullable) items).Safe texts
      fun v => v.Conforms texts s.ty := by
  refine Safe.imp (P := fun v => v.Conforms texts s.ty.nonNullable) ?_ fun _ => .of_nonNullable
  refine Selection.foldResults_safe h (defaultOf_conforms ht) fun total u htotal hu present => ?_
  rcases hu.nullable_or_present hs with ⟨rfl, -⟩ | ⟨-, hu⟩
  · cases present
  · exact sumOf_safe ht htotal hu

/-! ## Averages -/

/-- What the total is on the way to an average: integers are added up as integers of any kind. -/
def IsTotal (texts : Prop) (kind : Ty) (total : Value) : Prop :=
  if averagesWide kind then ∃ k w, total = .integer k w else total.Conforms texts kind

theorem wideSumOf_safe {total : Value} (htotal : ∃ k w, total = .integer k w)
    (hu : ∃ k w, v = .integer k w) :
    (wideSumOf total v).Safe texts fun next => ∃ k w, next = .integer k w := by
  obtain ⟨k, w, rfl⟩ := htotal
  obtain ⟨l, n, rfl⟩ := hu
  exact Safe.ofMap .overflow fun w => ⟨_, w, rfl⟩

theorem add_safe {kind : Ty} {total : Value} (hk : sums kind) (htotal : IsTotal texts kind total)
    (hu : v.Conforms texts kind) :
    (if averagesWide kind then wideSumOf total v else sumOf total v).Safe texts
      (IsTotal texts kind) := by
  unfold IsTotal at *
  split
  · rename_i wide
    rw [if_pos wide] at htotal
    refine wideSumOf_safe htotal ?_
    simp only [averagesWide, Bool.or_eq_true, decide_eq_true_eq] at wide
    rcases wide with rfl | rfl
    · exact ⟨_, hu.integer⟩
    · exact ⟨_, hu.integer⟩
  · rename_i narrow
    rw [if_neg narrow] at htotal
    exact sumOf_safe hk htotal hu

theorem zero_isTotal {kind : Ty} (hk : sums kind) : IsTotal texts kind (defaultOf kind) := by
  unfold IsTotal
  split
  · rename_i wide
    simp only [averagesWide, Bool.or_eq_true, decide_eq_true_eq] at wide
    rcases wide with rfl | rfl
    · exact ⟨_, _, rfl⟩
    · exact ⟨_, _, rfl⟩
  · exact defaultOf_conforms hk

theorem quotientOf_safe {kind : Ty} {total : Value} (n : Nat) (hk : sums kind)
    (h : IsTotal texts kind total) :
    (quotientOf total n).Safe texts fun v => v.Conforms texts (averageTy kind) := by
  unfold sums at hk
  split at hk
  · obtain ⟨k, w, rfl⟩ := h
    exact .ok (.scalar rfl rfl rfl)
  · obtain ⟨k, w, rfl⟩ := h
    exact .ok (.scalar rfl rfl rfl)
  · obtain ⟨x, rfl⟩ := Conforms.single h
    exact .ok (.scalar rfl rfl rfl)
  · obtain ⟨x, rfl⟩ := Conforms.double h
    exact .ok (.scalar rfl rfl rfl)
  · obtain ⟨d, rfl⟩ := Conforms.decimal h
    refine Safe.bind (Safe.ofOption .overflow fun _ _ => trivial) fun m (_ : True) => ?_
    exact Safe.ofMap .overflow fun _ => .scalar rfl rfl rfl
  · cases hk

/-- The average has null where the results have. -/
theorem averageTy_nonNullable (ht : sums t.nonNullable) :
    (averageTy t).nonNullable = averageTy t.nonNullable := by
  cases t with
  | nullable inner =>
      simp only [Ty.nonNullable] at ht
      unfold sums at ht
      split at ht
      all_goals first
        | rfl
        | cases ht
  | predefined p =>
      cases p with
      | integer k => cases k <;> rfl
      | _ => rfl
  | _ => cases ht

theorem averageOf_safe (h : s.SafeOn texts items) (hs : s.ty.isValueType)
    (ht : sums s.ty.nonNullable) :
    (averageOf s items (averageTy s.ty)).Safe texts fun v => v.Conforms texts (averageTy s.ty) := by
  refine Safe.bind (P := fun sum => IsTotal texts s.ty.nonNullable sum.1) ?_ ?_
  · refine Selection.foldResults_safe h (zero_isTotal ht) fun total u htotal hu present => ?_
    rcases hu.nullable_or_present hs with ⟨rfl, -⟩ | ⟨-, hu⟩
    · cases present
    · exact Safe.bind (add_safe ht htotal hu) fun next hnext => .ok hnext
  · rintro ⟨total, n⟩ htotal
    dsimp only
    split
    · split
      · exact .ok (.null (.inr ‹_›))
      · exact .error .emptySequence
    · refine (quotientOf_safe _ ht htotal).imp fun v hv => .of_nonNullable ?_
      rwa [averageTy_nonNullable ht]

/-! ## Whole operations -/

theorem run_safe {op : AggregateOp} {element : Ty} (hop : [t] ∈ op.operands) (fit : s.ty.Fits t)
    (hitems : ∀ v ∈ items, v.Conforms texts element) (h : s.SafeOn texts items) :
    (op.run (some s) items (op.resultTy element (some s.ty))).Safe texts
      fun v => v.Conforms texts (op.resultTy element (some s.ty)) := by
  -- truth values are no references, so that a predicate has just their type
  have predicate (hb : t = .boolean) : s.ty = .boolean := by
    subst hb
    exact fit.eq (.inl rfl)
  cases op with
  | filter =>
      have hs := predicate (by simpa [operands] using hop)
      exact Safe.bind (Selection.keep_safe hs h) fun kept hkept =>
        .ok (.sequence fun u hu => hitems u (hkept u hu))
  | any =>
      have hs := predicate (by simpa [operands] using hop)
      exact Safe.bind (Selection.meets_safe true hs h) fun _ _ => .ok (.scalar rfl rfl rfl)
  | all =>
      have hs := predicate (by simpa [operands] using hop)
      exact Safe.bind (Selection.meets_safe false hs h) fun _ _ => .ok (.scalar rfl rfl rfl)
  | count =>
      have hs := predicate (by simpa [operands] using hop)
      exact Safe.bind (Selection.keep_safe hs h) fun kept _ => countOf_safe kept.length
  | min => exact extremeOf_safe .lt h
  | max => exact extremeOf_safe .gt h
  | sum =>
      obtain ⟨hv, hsum⟩ := operands_sum (.inl rfl) hop
      cases fit.eq (.inl hv)
      exact sum_safe h hv hsum
  | average =>
      obtain ⟨hv, hsum⟩ := operands_sum (.inr rfl) hop
      cases fit.eq (.inl hv)
      exact averageOf_safe h hv hsum

theorem run_bare_safe {op : AggregateOp} {element : Ty} (hop : [] ∈ op.operands)
    (items : List Value) : (op.run none items (op.resultTy element none)).Safe texts
      fun v => v.Conforms texts (op.resultTy element none) := by
  cases op with
  | any => exact .ok (.scalar rfl rfl rfl)
  | count => exact countOf_safe items.length
  | filter | all | min | max => simp [operands] at hop
  | sum | average => simp [operands] at hop

end AggregateOp
end TypedExpr
