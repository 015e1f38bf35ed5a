import TypedExpr.Proofs.MirroredComparisons
import TypedExpr.Proofs.SequencePredicates

/-! # Folded results

Adding up results, and looking for a least or greatest one, goes from item to item and leaves out
nulls. A total of integers is their sum in mathematics as long as no total on the way is out of
bounds; it is never wrapped. Of results in a line the first that is least or greatest is found, as a
later one takes its place only where it is beyond it.
-/

namespace TypedExpr

open Value (OnScale TotalOn)
open MathMethod (isNaN)

namespace Value

/-! ## Values beyond others -/

variable {belongs : Value → Prop} {a b c : Value} {side : Ordering}

theorem atMost_iff_not_lt (total : TotalOn belongs) (ha : belongs a) (hb : belongs b) :
    b.atMost a ↔ a.compare? b ≠ some .lt := by
  obtain ⟨o, ho⟩ := total.defined ha hb
  rw [atMost, total.reversed ha hb, ho]
  cases o <;> decide

theorem lt_of_atMost_of_lt (total : TotalOn belongs) (ha : belongs a) (hb : belongs b)
    (hc : belongs c) (hab : a.atMost b) (hbc : b.compare? c = some .lt) :
    a.compare? c = some .lt := by
  by_contra notLess
  have hca := (atMost_iff_not_lt total ha hc).mpr notLess
  exact (atMost_iff_not_lt total hb hc).mp (total.trans hc ha hb hca hab) hbc

theorem lt_of_lt_of_atMost (total : TotalOn belongs) (ha : belongs a) (hb : belongs b)
    (hc : belongs c) (hab : a.compare? b = some .lt) (hbc : b.atMost c) :
    a.compare? c = some .lt := by
  by_contra notLess
  have hca := (atMost_iff_not_lt total ha hc).mpr notLess
  exact (atMost_iff_not_lt total ha hb).mp (total.trans hb hc ha hbc hca) hab

theorem compare?_eq_gt : a.compare? b = some .gt ↔ b.compare? a = some .lt := by
  rw [compare?_swap a b]
  cases a.compare? b with
  | none => simp
  | some o => cases o <;> decide

theorem not_beyond_of_beyond (h : side ≠ .eq) (hab : a.compare? b = some side) :
    b.compare? a ≠ some side := by
  rw [compare?_swap a b, hab]
  cases side with
  | eq => contradiction
  | _ => decide

/-- What is beyond a value is beyond all those that are not. -/
theorem beyond_of_not_beyond (total : TotalOn belongs) (ha : belongs a) (hb : belongs b)
    (hc : belongs c) (h : side ≠ .eq) (hac : a.compare? c = some side)
    (hbc : b.compare? c ≠ some side) : a.compare? b = some side := by
  cases side with
  | eq => contradiction
  | lt => exact lt_of_lt_of_atMost total ha hc hb hac ((atMost_iff_not_lt total hb hc).mpr hbc)
  | gt =>
      rw [ne_eq, compare?_eq_gt] at hbc
      rw [compare?_eq_gt] at hac ⊢
      exact lt_of_atMost_of_lt total hb hc ha ((atMost_iff_not_lt total hc hb).mpr hbc) hac

theorem beyond_trans (total : TotalOn belongs) (ha : belongs a) (hb : belongs b) (hc : belongs c)
    (h : side ≠ .eq) (hab : a.compare? b = some side) (hbc : b.compare? c = some side) :
    a.compare? c = some side :=
  beyond_of_not_beyond total ha hc hb h hab (not_beyond_of_beyond h hbc)

/-- Of a type with an order the values other than null show the type. -/
theorem typeOf_of_conformsTo {t : Ty} (scale : t.nonNullable.isScale) {v : Value}
    (h : v.conformsTo t) : v = .null ∨ v.typeOf = t.nonNullable := by
  refine or_iff_not_imp_left.mpr fun some => ?_
  have shown := (null_or_conformsTo h).resolve_left some
  generalize t.nonNullable = u at scale shown
  cases u with
  | predefined p =>
      cases (Conforms.of_predefined shown : v.Conforms False _) with
      | null => contradiction
      | scalar _ _ type => exact type
      | object => cases scale
  | enum e =>
      obtain ⟨n, rfl⟩ := (of_conformsTo_enum rfl shown).resolve_left some
      rfl
  | _ => cases scale

/-- No value of the list is beyond this one, and it is beyond all that come before it. -/
def FirstExtreme (side : Ordering) (vs : List Value) (v : Value) : Prop :=
  ∃ before after, vs = before ++ v :: after ∧ (∀ w ∈ vs, w.compare? v ≠ some side) ∧
    ∀ u ∈ before, v.compare? u = some side

namespace FirstExtreme

variable {vs : List Value} {v : Value}

theorem mem (h : FirstExtreme side vs v) : v ∈ vs := by
  obtain ⟨before, after, rfl, -, -⟩ := h
  simp

theorem singleton (h : side ≠ .eq) (v : Value) : FirstExtreme side [v] v := by
  refine ⟨[], [], rfl, ?_, List.forall_mem_nil _⟩
  exact List.forall_mem_singleton.mpr fun self => not_beyond_of_beyond h self self

/-- The first value of the list is found, or one that is beyond it. -/
theorem eq_or_beyond (h : FirstExtreme side (b :: vs) v) : v = b ∨ v.compare? b = some side := by
  obtain ⟨before, after, parts, -, first⟩ := h
  cases before with
  | nil => exact .inl (List.cons.inj parts).1.symm
  | cons u before =>
      obtain ⟨rfl, -⟩ := List.cons.inj parts
      exact .inr (first _ List.mem_cons_self)

/-- A value that is not as far out may stand before all others. -/
theorem cons (side_ne : side ≠ .eq) (h : FirstExtreme side vs v)
    (beyond : v.compare? b = some side) : FirstExtreme side (b :: vs) v := by
  obtain ⟨before, after, rfl, none, first⟩ := h
  refine ⟨b :: before, after, rfl, ?_, List.forall_mem_cons.mpr ⟨beyond, first⟩⟩
  exact List.forall_mem_cons.mpr ⟨not_beyond_of_beyond side_ne beyond, none⟩

/-- A value that is not beyond the first one may stand after it. -/
theorem insert (total : TotalOn belongs) (side_ne : side ≠ .eq) (belong : ∀ u ∈ b :: vs, belongs u)
    (hc : belongs c) (notBeyond : c.compare? b ≠ some side) (h : FirstExtreme side (b :: vs) v) :
    FirstExtreme side (b :: c :: vs) v := by
  have hv := belong v h.mem
  obtain ⟨before, after, parts, none, first⟩ := h
  obtain ⟨noneFirst, noneLater⟩ := List.forall_mem_cons.mp none
  cases before with
  | nil =>
      cases parts
      refine ⟨[], c :: vs, rfl, ?_, List.forall_mem_nil _⟩
      exact List.forall_mem_cons.mpr ⟨noneFirst, List.forall_mem_cons.mpr ⟨notBeyond, noneLater⟩⟩
  | cons u before =>
      cases parts
      obtain ⟨beyond, first⟩ := List.forall_mem_cons.mp first
      have further : v.compare? c = some side :=
        beyond_of_not_beyond total hv hc (belong b List.mem_cons_self) side_ne beyond notBeyond
      have behind := not_beyond_of_beyond side_ne further
      refine ⟨b :: c :: before, after, rfl, ?_, ?_⟩
      · exact List.forall_mem_cons.mpr ⟨noneFirst, List.forall_mem_cons.mpr ⟨behind, noneLater⟩⟩
      · exact List.forall_mem_cons.mpr ⟨beyond, List.forall_mem_cons.mpr ⟨further, first⟩⟩

end FirstExtreme

end Value

namespace AggregateOp

open Value

/-! ## Folds -/

/-- The function has these results for the items. -/
def Selection.Results (s : Selection) (items results : List Value) : Prop :=
  List.Forall₂ (fun v result => s.select v = .ok result) items results

/-- The results that are not null. -/
def present (results : List Value) : List Value := results.filter fun v => !v.isNull

theorem mem_present {results : List Value} {v : Value} :
    v ∈ present results ↔ v ∈ results ∧ v ≠ .null := by
  have absent : v.isNull = false ↔ v ≠ .null := by
    cases v <;> simp [isNull]
  simp [present, absent]

theorem Selection.Results.foldResults {α : Type} {s : Selection} {items results : List Value}
    (h : s.Results items results) (f : α → Value → Outcome α) (start : α) :
    s.foldResults f start items = (present results).foldlM f start := by
  induction h generalizing start with
  | nil => rfl
  | @cons v result items results selected _ ih =>
      rw [Selection.foldResults, selected]
      change (do
        let next ← if result.isNull then pure start else f start result
        s.foldResults f next items) = _
      cases absent : result.isNull with
      | true =>
          rw [present, List.filter_cons_of_neg (by simp [absent])]
          exact ih start
      | false =>
          rw [present, List.filter_cons_of_pos (by simp [absent]), List.foldlM_cons]
          exact congrArg (f start result >>= ·) (funext ih)

/-! ## Totals -/

theorem sumOf_words {k : IntKind} (hk : k = .int32 ∨ k = .int64) (a b : k.Word) :
    sumOf (.integer k a) (.integer k b) =
      Outcome.ofOption .overflow ((k.ofInt? (a.val + b.val)).map (.integer k)) := by
  rcases hk with rfl | rfl <;> rfl

/-- The totals on the way, and the last one, are within the bounds of the kind. -/
def TotalsHold (k : IntKind) (start : Int) (words : List k.Word) : Prop :=
  ∀ part, part <+: words → k.Holds (start + (part.map (·.val)).sum)

theorem totalsHold_cons {k : IntKind} {start : Int} {w : k.Word} {words : List k.Word}
    (h : k.Holds start) :
    TotalsHold k start (w :: words) ↔ TotalsHold k (start + w.val) words := by
  refine ⟨fun holds part hpart => ?_, fun holds part hpart => ?_⟩
  · have longer := holds (w :: part) (List.cons_prefix_cons.mpr ⟨rfl, hpart⟩)
    rwa [List.map_cons, List.sum_cons, ← Int.add_assoc] at longer
  · rcases List.prefix_cons_iff.mp hpart with rfl | ⟨rest, rfl, hrest⟩
    · simpa using h
    · rw [List.map_cons, List.sum_cons, ← Int.add_assoc]
      exact holds rest hrest

theorem foldlM_sumOf {k : IntKind} (hk : k = .int32 ∨ k = .int64) (words : List k.Word)
    (start : k.Word) :
    (TotalsHold k start.val words → ∃ w : k.Word,
        (words.map (Value.integer k)).foldlM sumOf (.integer k start) = .ok (.integer k w) ∧
          w.val = start.val + (words.map (·.val)).sum) ∧
      (¬ TotalsHold k start.val words →
        (words.map (Value.integer k)).foldlM sumOf (.integer k start) = .error .overflow) := by
  induction words generalizing start with
  | nil =>
      refine ⟨fun _ => ⟨start, rfl, by simp⟩, fun fails => absurd ?_ fails⟩
      intro part hpart
      cases List.prefix_nil.mp hpart
      simpa using start.holds
  | cons word words ih =>
      rw [totalsHold_cons start.holds, List.map_cons, List.foldlM_cons, sumOf_words hk]
      by_cases next : k.Holds (start.val + word.val)
      · rw [IntKind.ofInt?_of_holds next]
        have value : (k.wrap (start.val + word.val)).val = start.val + word.val :=
          IntKind.wrap_val next
        have later := ih (k.wrap (start.val + word.val))
        rw [value] at later
        rw [List.map_cons, List.sum_cons, ← Int.add_assoc]
        exact later
      · rw [IntKind.ofInt?_of_not_holds next]
        refine ⟨fun holds => absurd ?_ next, fun _ => rfl⟩
        simpa using holds [] (List.nil_prefix)

/-- Whatever conforms to a type of integers is a word or null. -/
theorem present_words {k : IntKind} {t : Ty} (type : t.nonNullable = .integer k)
    {results : List Value} (typed : ∀ v ∈ results, v.conformsTo t) :
    ∃ words : List k.Word, words.map (.integer k) = present results := by
  have range : ∀ v ∈ present results, v ∈ Set.range (Value.integer k) := by
    intro v hv
    obtain ⟨result, nonNull⟩ := mem_present.mp hv
    obtain ⟨w, rfl⟩ := (of_conformsTo_integer type (typed v result)).resolve_left nonNull
    exact ⟨w, rfl⟩
  have lists := Set.range_list_map (Value.integer k)
  exact (Set.ext_iff.mp lists (present results)).mpr range

/-! ## Extremes -/

theorem foldl_moreExtreme {belongs : Value → Prop} (total : TotalOn belongs) {side : Ordering}
    (h : side ≠ .eq) {b : Value} {vs : List Value} (belong : ∀ v ∈ b :: vs, belongs v) :
    ∃ v, vs.foldl (moreExtreme side) (some b) = some v ∧ FirstExtreme side (b :: vs) v := by
  induction vs generalizing b with
  | nil => exact ⟨b, rfl, .singleton h b⟩
  | cons c vs ih =>
      obtain ⟨hb, rest⟩ := List.forall_mem_cons.mp belong
      obtain ⟨hc, hvs⟩ := List.forall_mem_cons.mp rest
      rw [List.foldl_cons, moreExtreme]
      split
      · rename_i beyond
        obtain ⟨v, found, extreme⟩ := ih rest
        refine ⟨v, found, extreme.cons h ?_⟩
        rcases extreme.eq_or_beyond with rfl | further
        · exact beyond
        · exact beyond_trans total (rest v extreme.mem) hc hb h further beyond
      · rename_i notBeyond
        have earlier := List.forall_mem_cons.mpr ⟨hb, hvs⟩
        obtain ⟨v, found, extreme⟩ := ih earlier
        exact ⟨v, found, extreme.insert total h earlier hc notBeyond⟩

theorem extremeOf_present {belongs : Value → Prop} (total : TotalOn belongs) {side : Ordering}
    (h : side ≠ .eq) {s : Selection} {items results : List Value} (hr : s.Results items results)
    (belong : ∀ v ∈ present results, belongs v) (some : present results ≠ []) :
    ∃ v, extremeOf s side items = .ok v ∧ FirstExtreme side (present results) v := by
  obtain ⟨b, vs, parts⟩ := List.exists_cons_of_ne_nil some
  rw [parts] at belong
  obtain ⟨v, found, extreme⟩ := foldl_moreExtreme total h belong
  refine ⟨v, ?_, parts ▸ extreme⟩
  have folded : (b :: vs).foldl (moreExtreme side) Option.none = Option.some v := found
  rw [extremeOf, hr.foldResults, List.foldlM_pure, parts, folded]
  rfl

theorem extremeOf_absent {side : Ordering} {s : Selection} {items results : List Value}
    (hr : s.Results items results) (none : present results = []) :
    extremeOf s side items =
      if !s.ty.isValueType || s.ty.isNullable then .ok .null else .error .emptySequence := by
  rw [extremeOf, hr.foldResults, none]
  rfl

end AggregateOp

namespace Expr

open AggregateOp

/-- Where a function has results of its type for all items, integers add up to their sum, or
overflow where a total on the way does. The least and greatest of results with an order are the
first such ones, and if all results are null there is none. -/
theorem folds_exact (host : Host) (scope : Scope) (source : Expr) (l : Lambda)
    (ty : AggregateOp → Ty) (items results : List Value)
    (h : (eval host source scope >>= Value.itemsOf) = .ok items)
    (selected : (l.selection host scope).Results items results)
    (typed : ∀ v ∈ results, v.conformsTo l.resultTy) :
    let gives (op : AggregateOp) := eval host (.aggregate source op (some l) (ty op)) scope
    (∀ k : IntKind, k = .int32 ∨ k = .int64 → l.resultTy.nonNullable = .integer k →
      ∃ words : List k.Word, words.map (.integer k) = present results ∧
        ((∀ part, part <+: words → k.Holds (part.map (·.val)).sum) → ∃ total : k.Word,
          gives .sum = .ok (.integer k total) ∧ total.val = (words.map (·.val)).sum) ∧
        ((¬ ∀ part, part <+: words → k.Holds (part.map (·.val)).sum) →
          gives .sum = .error .overflow)) ∧
    (l.resultTy.nonNullable.isScale → (∀ v ∈ results, isNaN v = false) → present results ≠ [] →
      (∃ v, gives .min = .ok v ∧ Value.FirstExtreme .lt (present results) v) ∧
        ∃ v, gives .max = .ok v ∧ Value.FirstExtreme .gt (present results) v) ∧
    (present results = [] → ∀ op, op = .min ∨ op = .max →
      gives op = if !l.resultTy.isValueType || l.resultTy.isNullable then .ok .null
        else .error .emptySequence) := by
  intro gives
  have carried (op : AggregateOp) : gives op = op.runWith (l.selection host scope) items (ty op) :=
    eval_aggregate h op l _
  refine ⟨fun k hk type => ?_, fun scale number some => ?_, fun none op hop => ?_⟩
  · obtain ⟨words, hwords⟩ := present_words type typed
    have bounds := k.low_eq
    have zero : (k.wrap 0).val = 0 := IntKind.wrap_val ⟨by omega, by omega⟩
    have start : Value.defaultOf (l.selection host scope).ty.nonNullable =
        .integer k (k.wrap 0) := by
      change Value.defaultOf l.resultTy.nonNullable = _
      rw [type]
      rfl
    have totals := foldlM_sumOf hk words (k.wrap 0)
    simp only [TotalsHold, zero, Int.zero_add] at totals
    have summed :
        gives .sum = (words.map (Value.integer k)).foldlM sumOf (.integer k (k.wrap 0)) := by
      rw [carried, runWith, selected.foldResults, hwords, start]
    rw [summed]
    exact ⟨words, hwords, totals⟩
  · have onScale : ∀ v ∈ present results, OnScale l.resultTy.nonNullable v := by
      intro v hv
      obtain ⟨result, nonNull⟩ := mem_present.mp hv
      have type := (Value.typeOf_of_conformsTo scale (typed v result)).resolve_left nonNull
      exact ⟨type, number v result⟩
    have total := Value.totalOn_scale scale
    rw [carried, carried]
    exact ⟨extremeOf_present total (by decide) selected onScale some,
      extremeOf_present total (by decide) selected onScale some⟩
  · rw [carried]
    rcases hop with rfl | rfl <;> exact extremeOf_absent selected none

private def itself (ty : Ty) : Lambda :=
  let item : Parameter := ⟨0, "", ty⟩
  ⟨[item], .parameter item⟩

/-- The total of the greatest number and one overflows, although with minus one the sum would be
the greatest number again. -/
theorem folds_exact_overflow :
    let host : Host := fun _ _ _ => .error "no host"
    let items : List Value := [.int32 2147483647, .null, .int32 1, .int32 (-1)]
    let gives (op : AggregateOp) :=
      eval host (.aggregate (.constant (.sequence items) (.sequence (.nullable .int32))) op
        (some (itself (.nullable .int32))) (.nullable .int32)) []
    gives .sum = .error .overflow ∧
      ∃ v, gives .max = .ok v ∧
        Value.FirstExtreme .gt [.int32 2147483647, .int32 1, .int32 (-1)] v := by
  intro host items gives
  have typed : ∀ v ∈ items, v.conformsTo (itself (.nullable .int32)).resultTy := by
    simp only [items, List.forall_mem_cons]
    exact ⟨rfl, rfl, rfl, rfl, List.forall_mem_nil _⟩
  have number : ∀ v ∈ items, isNaN v = false := by
    simp only [items, List.forall_mem_cons]
    exact ⟨rfl, rfl, rfl, rfl, List.forall_mem_nil _⟩
  obtain ⟨sum, extreme, -⟩ := folds_exact host []
    (.constant (.sequence items) (.sequence (.nullable .int32))) (itself (.nullable .int32))
    (fun _ => .nullable .int32) items items rfl
    (.cons rfl (.cons rfl (.cons rfl (.cons rfl .nil)))) typed
  obtain ⟨words, hwords, -, overflow⟩ := sum .int32 (.inl rfl) rfl
  obtain ⟨-, max⟩ := extreme rfl number (by decide)
  refine ⟨overflow fun holds => ?_, max⟩
  have distinct : (Value.integer .int32).Injective := fun a b same => by cases same; rfl
  have all : words = [2147483647, 1, -1].map IntKind.int32.wrap :=
    List.map_injective_iff.mpr distinct hwords
  have two := holds (words.take 2) (List.take_prefix 2 words)
  rw [all] at two
  exact absurd two.2 (by decide)

end Expr
end TypedExpr
