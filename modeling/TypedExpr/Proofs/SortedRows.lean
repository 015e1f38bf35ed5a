import TypedExpr.Proofs.Ordering
import TypedExpr.Proofs.ValueOrder

/-! # Sorted rows

A sort inserts row after row into rows that are in order. Each insertion keeps the order, and
keeps the rows with the keys of any one row as they were before it, so that rows with equal keys
stay in the order in which they came. Before that the keys of the rows are evaluated row by row and
key by key, up to the first one that fails.
-/

namespace TypedExpr.OrderingKey

open Value (OnScale eq_null sameAll)

/-! ## Keys that differ -/

/-- The first key comes before the second one: it is smaller, or it is null. A descending order is
the other way round. -/
def Before (k : OrderingKey) (a b : Value) : Prop :=
  if k.ascending then a.isNull ∧ ¬ b.isNull ∨ a.compare? b = some .lt
  else ¬ a.isNull ∧ b.isNull ∨ a.compare? b = some .gt

/-- At the first keys that differ, that of the first list comes first. -/
inductive Precedes : List OrderingKey → List Value → List Value → Prop where
  | here {k ks a b as bs} (h : k.Before a b) : Precedes (k :: ks) (a :: as) (b :: bs)
  | later {k ks a b as bs} (tie : a == b) (h : Precedes ks as bs) :
      Precedes (k :: ks) (a :: as) (b :: bs)

/-! ## The order of one key -/

/-- The order of two values of one key. -/
def order (k : OrderingKey) (a b : Value) : Ordering :=
  if k.ascending then compareKeys a b else (compareKeys a b).swap

/-- Null, or a value on the scale. -/
def NullOrOn (t : Ty) (v : Value) : Prop := v.isNull ∨ OnScale t v

variable {t : Ty} {a b c : Value} {k : OrderingKey}

theorem not_null_of_onScale (scale : t.isScale) (h : OnScale t a) : a ≠ .null := by
  rintro rfl
  rw [← h.1] at scale
  cases scale

theorem compareKeys_null (h : a ≠ .null) : compareKeys a .null = .gt := by
  cases a with
  | null => contradiction
  | _ => rfl

theorem compareKeys_of_ne (ha : a ≠ .null) (hb : b ≠ .null) :
    compareKeys a b = (a.compare? b).getD .eq := by
  cases a <;> cases b <;> first | rfl | contradiction

theorem compareKeys_swap (a b : Value) : compareKeys b a = (compareKeys a b).swap := by
  by_cases ha : a = .null
  · subst ha
    cases b <;> rfl
  · by_cases hb : b = .null
    · subst hb
      cases a <;> rfl
    · rw [compareKeys_of_ne ha hb, compareKeys_of_ne hb ha, Value.compare?_swap]
      cases a.compare? b <;> rfl

theorem compareKeys_onScale (scale : t.isScale) (ha : OnScale t a) (hb : OnScale t b) :
    a.compare? b = some (compareKeys a b) := by
  obtain ⟨o, ho⟩ := (Value.totalOn_scale scale).defined ha hb
  rw [compareKeys_of_ne (not_null_of_onScale scale ha) (not_null_of_onScale scale hb), ho]
  rfl

theorem compareKeys_trans (scale : t.isScale) (ha : NullOrOn t a) (hb : NullOrOn t b)
    (hc : NullOrOn t c) (hab : (compareKeys a b).isLE) (hbc : (compareKeys b c).isLE) :
    (compareKeys a c).isLE := by
  rcases ha with ha | ha
  · -- nothing is before null
    cases eq_null ha
    cases c <;> rfl
  · have hna := not_null_of_onScale scale ha
    rcases hb with hb | hb
    · cases eq_null hb
      rw [compareKeys_null hna] at hab
      cases hab
    · have hnb := not_null_of_onScale scale hb
      rcases hc with hc | hc
      · cases eq_null hc
        rw [compareKeys_null hnb] at hbc
        cases hbc
      · have trans := (Value.totalOn_scale scale).trans ha hb hc
        simp only [Value.atMost, compareKeys_onScale scale ha hb, compareKeys_onScale scale hb hc,
          compareKeys_onScale scale ha hc, Option.any_some] at trans
        exact trans hab hbc

theorem compareKeys_eq_iff (scale : t.isScale) (ha : NullOrOn t a) (hb : NullOrOn t b) :
    compareKeys a b = .eq ↔ a == b := by
  rcases ha with ha | ha
  · cases eq_null ha
    cases b <;> simp [compareKeys, Value.beq_iff, Value.canonical]
  · rcases hb with hb | hb
    · cases eq_null hb
      cases a <;> simp [compareKeys, Value.beq_iff, Value.canonical]
    · rw [← (Value.totalOn_scale scale).tie ha hb, compareKeys_onScale scale ha hb,
        Option.some_inj]

theorem order_swap (k : OrderingKey) (a b : Value) : k.order b a = (k.order a b).swap := by
  unfold order
  rw [compareKeys_swap a b]
  split <;> rfl

theorem order_eq_iff (scale : t.isScale) (ha : NullOrOn t a) (hb : NullOrOn t b) :
    k.order a b = .eq ↔ a == b := by
  rw [← compareKeys_eq_iff scale ha hb, order]
  split
  · rfl
  · exact Ordering.swap_eq_eq

theorem transCmp_order (k : OrderingKey) (scale : t.isScale) :
    Std.TransCmp fun a b : {v // NullOrOn t v} => k.order a.1 b.1 where
  eq_swap := order_swap k _ _
  isLE_trans := by
    rintro ⟨a, ha⟩ ⟨b, hb⟩ ⟨c, hc⟩ hab hbc
    unfold order at hab hbc ⊢
    split at hab
    · rw [if_pos ‹_›] at hbc ⊢
      exact compareKeys_trans scale ha hb hc hab hbc
    · rw [if_neg ‹_›, ← compareKeys_swap] at hbc ⊢
      rw [← compareKeys_swap] at hab
      exact compareKeys_trans scale hc hb ha hbc hab

theorem compareKeys_eq_lt (h : compareKeys a b = .lt) :
    a.isNull ∧ ¬ b.isNull ∨ a.compare? b = some .lt := by
  by_cases ha : a = .null
  · subst ha
    refine .inl ⟨rfl, fun hb => ?_⟩
    cases eq_null hb
    cases h
  · by_cases hb : b = .null
    · rw [hb, compareKeys_null ha] at h
      cases h
    · rw [compareKeys_of_ne ha hb] at h
      cases o : a.compare? b with
      | none => simp [o] at h
      | some o' => exact .inr (by rw [← h, o]; rfl)

theorem before_of_order (h : k.order a b = .lt) : k.Before a b := by
  unfold order at h
  unfold Before
  split at h
  · rw [if_pos ‹_›]
    exact compareKeys_eq_lt h
  · rw [if_neg ‹_›]
    rw [← compareKeys_swap] at h
    rcases compareKeys_eq_lt h with ⟨hb, ha⟩ | less
    · exact .inl ⟨ha, hb⟩
    · rw [Value.compare?_swap b a, less]
      exact .inr rfl

/-! ## The order of all keys -/

section

variable {keys : List OrderingKey} {as bs cs : List Value} {S : OrderingKey → Value → Prop}

/-- Each key has a scale for its values. -/
def Scaled (keys : List OrderingKey) (S : OrderingKey → Value → Prop) : Prop :=
  ∀ k ∈ keys, ∃ t : Ty, t.isScale ∧ ∀ v, S k v → NullOrOn t v

theorem compareAll_cons (k : OrderingKey) (ks : List OrderingKey) (a b : Value)
    (as bs : List Value) :
    compareAll (k :: ks) (a :: as) (b :: bs) = (k.order a b).then (compareAll ks as bs) :=
  rfl

theorem compareAll_swap (keys : List OrderingKey) (as bs : List Value) :
    compareAll keys bs as = (compareAll keys as bs).swap := by
  induction keys generalizing as bs with
  | nil => rfl
  | cons k ks ih =>
      cases as with
      | nil => cases bs <;> rfl
      | cons a as =>
          cases bs with
          | nil => rfl
          | cons b bs =>
              rw [compareAll_cons, compareAll_cons, Ordering.swap_then, ih as bs, order_swap k a b]

theorem compareAll_eq_iff (scaled : Scaled keys S) (ha : List.Forall₂ S keys as)
    (hb : List.Forall₂ S keys bs) : compareAll keys as bs = .eq ↔ sameAll as bs := by
  induction ha generalizing bs with
  | nil =>
      cases hb
      simp [compareAll, sameAll]
  | @cons k a ks as first _ ih =>
      cases hb with
      | @cons _ b _ bs second rest =>
          obtain ⟨t, scale, on⟩ := scaled k List.mem_cons_self
          have tail := ih (fun q hq => scaled q (List.mem_cons_of_mem k hq)) rest
          rw [compareAll_cons, Ordering.then_eq_eq, tail,
            order_eq_iff scale (on a first) (on b second)]
          simp only [sameAll, Bool.and_eq_true]
          rfl

theorem compareAll_trans (scaled : Scaled keys S) (ha : List.Forall₂ S keys as)
    (hb : List.Forall₂ S keys bs) (hc : List.Forall₂ S keys cs) (hab : (compareAll keys as bs).isLE)
    (hbc : (compareAll keys bs cs).isLE) : (compareAll keys as cs).isLE := by
  induction ha generalizing bs cs with
  | nil => rfl
  | @cons k a ks as headA _ ih =>
      cases hb with
      | @cons _ b _ bs headB tailB =>
          cases hc with
          | @cons _ c _ cs headC tailC =>
              obtain ⟨t, scale, on⟩ := scaled k List.mem_cons_self
              have trans := transCmp_order k scale
              let x : {v // NullOrOn t v} := ⟨a, on a headA⟩
              let y : {v // NullOrOn t v} := ⟨b, on b headB⟩
              let z : {v // NullOrOn t v} := ⟨c, on c headC⟩
              rw [compareAll_cons, Ordering.isLE_then_iff_or] at hab hbc ⊢
              rcases hab with ab | ⟨ab, restAB⟩
              · rcases hbc with bc | ⟨bc, -⟩
                · exact .inl (trans.lt_trans (a := x) (b := y) (c := z) ab bc)
                · exact .inl (trans.lt_of_lt_of_eq (a := x) (b := y) (c := z) ab bc)
              · rcases hbc with bc | ⟨bc, restBC⟩
                · exact .inl (trans.lt_of_eq_of_lt (a := x) (b := y) (c := z) ab bc)
                · exact .inr ⟨trans.eq_trans (a := x) (b := y) (c := z) ab bc,
                    ih (fun q hq => scaled q (List.mem_cons_of_mem k hq)) tailB tailC restAB
                      restBC⟩

theorem precedes_of_lt (ha : List.Forall₂ S keys as)
    (hb : List.Forall₂ S keys bs) (scaled : Scaled keys S) (h : compareAll keys as bs = .lt) :
    Precedes keys as bs := by
  induction ha generalizing bs with
  | nil => cases h
  | @cons k a ks as first _ ih =>
      cases hb with
      | @cons _ b _ bs second rest =>
          rw [compareAll_cons, Ordering.then_eq_lt] at h
          rcases h with less | ⟨tie, later⟩
          · exact .here (before_of_order less)
          · obtain ⟨t, scale, on⟩ := scaled k List.mem_cons_self
            exact .later ((order_eq_iff scale (on a first) (on b second)).mp tie)
              (ih rest (fun q hq => scaled q (List.mem_cons_of_mem k hq)) later)

/-! ## Insertion -/

variable {x : List Value × Value} {rows : List (List Value × Value)}

/-- In order, the last one first. -/
def Arranged (keys : List OrderingKey) (rows : List (List Value × Value)) : Prop :=
  rows.Pairwise fun later earlier => (compareAll keys earlier.1 later.1).isLE

theorem insert_perm (keys : List OrderingKey) (x : List Value × Value)
    (rows : List (List Value × Value)) : (insert keys x rows).Perm (x :: rows) := by
  induction rows with
  | nil => exact .refl _
  | cons y ys ih =>
      rw [insert]
      split
      · exact (ih.cons y).trans (.swap x y ys)
      · exact .refl _

theorem Arranged.insert (scaled : Scaled keys S) (hx : List.Forall₂ S keys x.1)
    (keyed : ∀ row ∈ rows, List.Forall₂ S keys row.1) (h : Arranged keys rows) :
    Arranged keys (insert keys x rows) := by
  induction rows with
  | nil => exact List.pairwise_singleton _ _
  | cons y ys ih =>
      obtain ⟨first, rest⟩ := List.pairwise_cons.mp h
      rw [OrderingKey.insert]
      split
      next less =>
        -- the new row goes past the last one
        refine List.pairwise_cons.mpr ⟨fun z hz => ?_, ih (fun row hrow => keyed row
          (List.mem_cons_of_mem y hrow)) rest⟩
        rcases List.mem_cons.mp ((insert_perm keys x ys).mem_iff.mp hz) with rfl | old
        · rw [less]
          rfl
        · exact first z old
      next stays =>
        have after : (compareAll keys y.1 x.1).isLE := by
          rw [compareAll_swap keys x.1 y.1, Ordering.isLE_swap]
          cases o : compareAll keys x.1 y.1 with
          | lt => exact absurd o stays
          | _ => rfl
        refine List.pairwise_cons.mpr ⟨fun z hz => ?_, h⟩
        rcases List.mem_cons.mp hz with rfl | old
        · exact after
        · exact compareAll_trans scaled (keyed z (List.mem_cons_of_mem y old))
            (keyed y List.mem_cons_self) hx (first z old) after

/-- An insertion does not go past rows with the keys of the new one. -/
theorem filter_insert {tied : List Value × Value → Bool}
    (ties : ∀ y ∈ rows, tied x → tied y → compareAll keys x.1 y.1 = .eq) :
    (insert keys x rows).filter tied = (x :: rows).filter tied := by
  induction rows with
  | nil => rfl
  | cons y ys ih =>
      rw [insert]
      split
      next less =>
        have rest := ih fun z hz => ties z (List.mem_cons_of_mem y hz)
        rw [List.filter_cons, rest]
        by_cases hx : tied x
        · have other : ¬ tied y := by
            intro hy
            rw [ties y List.mem_cons_self hx hy] at less
            cases less
          rw [if_neg other, List.filter_cons_of_pos hx, List.filter_cons_of_pos hx,
            List.filter_cons_of_neg other]
        · rw [List.filter_cons_of_neg hx, List.filter_cons_of_neg hx, List.filter_cons]
      next => rfl

/-- The rows in order, the last one first. -/
def gather (keys : List OrderingKey) (rows : List (List Value × Value)) :
    List (List Value × Value) :=
  rows.foldr (insert keys) []

theorem arrange_eq (keys : List OrderingKey) (rows : List (List Value × Value)) :
    arrange keys rows = (gather keys rows.reverse).reverse.map (·.2) := by
  rw [arrange, List.foldl_eq_foldr_reverse, List.map_reverse]
  rfl

theorem gather_perm (keys : List OrderingKey) (rows : List (List Value × Value)) :
    (gather keys rows).Perm rows := by
  induction rows with
  | nil => exact .refl _
  | cons x rows ih => exact (insert_perm keys x _).trans (ih.cons x)

theorem arranged_gather (scaled : Scaled keys S)
    (keyed : ∀ row ∈ rows, List.Forall₂ S keys row.1) : Arranged keys (gather keys rows) := by
  induction rows with
  | nil => exact .nil
  | cons x rows ih =>
      have rest := ih fun row hrow => keyed row (List.mem_cons_of_mem x hrow)
      refine rest.insert scaled (keyed x List.mem_cons_self) fun row hrow => ?_
      exact keyed row (List.mem_cons_of_mem x ((gather_perm keys rows).mem_iff.mp hrow))

theorem filter_gather (tied : List Value × Value → Bool)
    (ties : ∀ x ∈ rows, ∀ y ∈ rows, tied x → tied y → compareAll keys x.1 y.1 = .eq) :
    (gather keys rows).filter tied = rows.filter tied := by
  induction rows with
  | nil => rfl
  | cons x rows ih =>
      have rest := ih fun y hy z hz =>
        ties y (List.mem_cons_of_mem x hy) z (List.mem_cons_of_mem x hz)
      have own : ∀ y ∈ gather keys rows, tied x → tied y → compareAll keys x.1 y.1 = .eq :=
        fun y hy => ties x List.mem_cons_self y
          (List.mem_cons_of_mem x ((gather_perm keys rows).mem_iff.mp hy))
      refine (filter_insert own).trans ?_
      rw [List.filter_cons, List.filter_cons, rest]

end

/-! ## Keys that fail -/

/-- Where each element of a list takes a step, the list has the error of the first one that
fails. -/
theorem steps_error {α β γ : Type} (run : List α → Outcome (List γ)) {step : α → Outcome β}
    (entry : α → β → γ) (nil : run [] = .ok [])
    (cons : ∀ x xs, run (x :: xs) = step x >>= fun b => run xs >>= fun cs => .ok (entry x b :: cs))
    {xs : List α} {e : EvalError} : run xs = .error e ↔
      ∃ before x after, xs = before ++ x :: after ∧ (∀ y ∈ before, ∃ b, step y = .ok b) ∧
        step x = .error e := by
  induction xs with
  | nil =>
      rw [nil]
      refine ⟨nofun, ?_⟩
      rintro ⟨before, x, after, none, -⟩
      cases before <;> cases none
  | cons x xs ih =>
      rw [cons, Outcome.bind_error]
      constructor
      · rintro (first | ⟨b, taken, rest⟩)
        · exact ⟨[], x, xs, rfl, nofun, first⟩
        · rw [Outcome.bind_error] at rest
          obtain ⟨before, y, after, rfl, earlier, fails⟩ := ih.mp (rest.resolve_right nofun)
          exact ⟨x :: before, y, after, rfl, List.forall_mem_cons.mpr ⟨⟨b, taken⟩, earlier⟩,
            fails⟩
      · rintro ⟨before, y, after, parts, earlier, fails⟩
        cases before with
        | nil =>
            cases parts
            exact .inl fails
        | cons _ before =>
            cases parts
            obtain ⟨⟨b, taken⟩, earlier⟩ := List.forall_mem_cons.mp earlier
            refine .inr ⟨b, taken, Outcome.bind_error.mpr (.inl ?_)⟩
            exact ih.mpr ⟨before, y, after, rfl, earlier, fails⟩

section

variable {keys : List OrderingKey} {host : Host} {p : Parameter} {item : Value}
  {items : List Value} {e : EvalError}

/-- The keys of an item have the error of the first key that fails. -/
theorem keysOf_error : keysOf keys host p item = .error e ↔
    ∃ before k after, keys = before ++ k :: after ∧
      (∀ q ∈ before, ∃ v, q.selector.eval host [(p, item)] = .ok v) ∧
      k.selector.eval host [(p, item)] = .error e :=
  steps_error (keysOf · host p item) (fun _ v => v) rfl fun _ _ => rfl

/-- Rows have the error of the first item whose keys fail. -/
theorem withKeys_error : withKeys keys host p items = .error e ↔
    ∃ before item after, items = before ++ item :: after ∧
      (∀ earlier ∈ before, ∃ values, keysOf keys host p earlier = .ok values) ∧
      keysOf keys host p item = .error e :=
  steps_error (withKeys keys host p) (fun item values => (values, item)) rfl fun _ _ => rfl

theorem sort_error : sort keys host p items = .error e ↔ withKeys keys host p items = .error e := by
  rw [sort, Outcome.bind_error]
  refine ⟨fun h => h.resolve_right ?_, .inl⟩
  rintro ⟨rows, -, fails⟩
  cases fails

end

/-! ## Sorting -/

/-- All keys of the two items are equal. -/
def sameKeys (keys : List OrderingKey) (host : Host) (p : Parameter) (x y : Value) : Bool :=
  match keysOf keys host p x, keysOf keys host p y with
  | .ok as, .ok bs => sameAll as bs
  | _, _ => false

/-- At the first keys of the two items that differ, that of the first item comes first. -/
def Leads (keys : List OrderingKey) (host : Host) (p : Parameter) (x y : Value) : Prop :=
  ∃ as bs, keysOf keys host p x = .ok as ∧ keysOf keys host p y = .ok bs ∧
    (Precedes keys as bs ∨ sameAll as bs)

/-- What the selector of a key returns for one of the items. -/
def KeyOf (host : Host) (p : Parameter) (items : List Value) (k : OrderingKey) (v : Value) : Prop :=
  ∃ item ∈ items, k.selector.eval host [(p, item)] = .ok v

theorem sameAll_of_same {as bs cs : List Value} (first : sameAll cs as) (second : sameAll cs bs) :
    sameAll as bs := by
  have left := (Value.same_iff (.sequence cs) (.sequence as)).mp first
  have right := (Value.same_iff (.sequence cs) (.sequence bs)).mp second
  exact (Value.same_iff (.sequence as) (.sequence bs)).mpr (left.symm.trans right)

section

variable {keys : List OrderingKey} {host : Host} {p : Parameter} {items : List Value}
  {rows : List (List Value × Value)}

theorem keyOf_withKeys (h : withKeys keys host p items = .ok rows) :
    ∀ row ∈ rows, List.Forall₂ (KeyOf host p items) keys row.1 := by
  intro row hrow
  have item : row.2 ∈ items := by
    rw [← withKeys_items h]
    exact List.mem_map_of_mem hrow
  exact (keysOf_ok (withKeys_keys h row hrow)).imp fun k v value => ⟨row.2, item, value⟩

/-- The rows of one item after another are before each other where they should be. -/
theorem pairwise_leads (scaled : Scaled keys (KeyOf host p items))
    (h : withKeys keys host p items = .ok rows) :
    ((gather keys rows.reverse).reverse.map (·.2)).Pairwise (Leads keys host p) := by
  have keyed : ∀ row ∈ rows.reverse, List.Forall₂ (KeyOf host p items) keys row.1 := fun row hrow =>
    keyOf_withKeys h row (List.mem_reverse.mp hrow)
  have old : ∀ {row}, row ∈ gather keys rows.reverse → row ∈ rows := fun hrow =>
    List.mem_reverse.mp ((gather_perm keys rows.reverse).mem_iff.mp hrow)
  rw [List.pairwise_map, List.pairwise_reverse]
  refine (arranged_gather scaled keyed).imp_of_mem ?_
  intro y x hy hx order
  have keysX := keyOf_withKeys h x (old hx)
  have keysY := keyOf_withKeys h y (old hy)
  refine ⟨x.1, y.1, withKeys_keys h x (old hx), withKeys_keys h y (old hy), ?_⟩
  cases o : compareAll keys x.1 y.1 with
  | lt => exact .inl (precedes_of_lt keysX keysY scaled o)
  | eq => exact .inr ((compareAll_eq_iff scaled keysX keysY).mp o)
  | gt =>
      rw [o] at order
      cases order

/-- Rows with the keys of one item are not moved past each other. -/
theorem filter_sameKeys (scaled : Scaled keys (KeyOf host p items))
    (h : withKeys keys host p items = .ok rows) (item : Value) :
    ((gather keys rows.reverse).reverse.map (·.2)).filter (sameKeys keys host p item) =
      (rows.map (·.2)).filter (sameKeys keys host p item) := by
  have ties : ∀ x ∈ rows.reverse, ∀ y ∈ rows.reverse, sameKeys keys host p item x.2 →
      sameKeys keys host p item y.2 → compareAll keys x.1 y.1 = .eq := by
    intro x hx y hy tiedX tiedY
    replace hx := List.mem_reverse.mp hx
    replace hy := List.mem_reverse.mp hy
    rw [sameKeys, withKeys_keys h x hx] at tiedX
    rw [sameKeys, withKeys_keys h y hy] at tiedY
    rw [compareAll_eq_iff scaled (keyOf_withKeys h x hx) (keyOf_withKeys h y hy)]
    cases own : keysOf keys host p item with
    | error e => simp [own] at tiedX
    | ok values =>
        rw [own] at tiedX tiedY
        exact sameAll_of_same tiedX tiedY
  have kept := filter_gather (sameKeys keys host p item ∘ (·.2)) ties
  rw [List.filter_map, List.filter_map, List.filter_reverse, kept, List.filter_reverse,
    List.reverse_reverse]

end

/-- A sort returns the items in the lexicographic order of their keys, and items whose keys are all
equal in the order in which they came, if the keys of each place that are not null are on one scale.
It fails when a key does, with the error of the first such key of the first such item. -/
theorem sort_stable (keys : List OrderingKey) (host : Host) (p : Parameter) (items : List Value) :
    (Scaled keys (KeyOf host p items) → ∀ sorted, sort keys host p items = .ok sorted →
      sorted.Perm items ∧ sorted.Pairwise (Leads keys host p) ∧
        ∀ item ∈ items,
          sorted.filter (sameKeys keys host p item) = items.filter (sameKeys keys host p item)) ∧
      ∀ e, sort keys host p items = .error e ↔
        ∃ before item after, items = before ++ item :: after ∧
          (∀ earlier ∈ before, ∃ values, keysOf keys host p earlier = .ok values) ∧
          ∃ ks k rest, keys = ks ++ k :: rest ∧
            (∀ q ∈ ks, ∃ v, q.selector.eval host [(p, item)] = .ok v) ∧
            k.selector.eval host [(p, item)] = .error e := by
  refine ⟨?_, fun e => ?_⟩
  · intro scaled sorted h
    obtain ⟨rows, hrows, h⟩ := Outcome.bind_ok.mp h
    cases h
    have held := withKeys_items hrows
    rw [arrange_eq]
    refine ⟨?_, pairwise_leads scaled hrows, fun item _ => ?_⟩
    · rw [← held]
      refine List.Perm.map _ ((List.reverse_perm _).trans ?_)
      exact (gather_perm keys rows.reverse).trans (List.reverse_perm rows)
    · rw [filter_sameKeys scaled hrows item, held]
  · simp only [sort_error, withKeys_error, keysOf_error]

private def shape : RecordType :=
  ⟨1, [⟨"rank", .nullable .int32⟩, ⟨"level", .int32⟩, ⟨"id", .int32⟩]⟩

private def entry (rank : Value) (level id : Int) : Value :=
  .record shape [rank, .int32 level, .int32 id]

private def entryParameter : Parameter := ⟨0, "", .record shape⟩

/-- The key that is the field of an entry with this number. -/
private def byField (name : String) (ty : Ty) (n : Nat) (ascending : Bool) : OrderingKey :=
  ⟨.member (some (.parameter entryParameter)) (.record shape)
    ⟨name, ty, false, false, .field n⟩, ascending⟩

private def byRankThenLevel : List OrderingKey :=
  [byField "rank" (.nullable .int32) 0 true, byField "level" .int32 1 false]

private def entries : List Value :=
  [entry (.int32 2) 5 1, entry .null 0 2, entry (.int32 2) 7 3, entry (.int32 2) 5 4]

/-- The rank that is null comes first, then the higher level, and of two equal entries that which
came first. -/
theorem sort_stable_ranked :
    sort byRankThenLevel (fun _ _ _ => .error "no host") entryParameter entries =
        .ok [entry .null 0 2, entry (.int32 2) 7 3, entry (.int32 2) 5 1, entry (.int32 2) 5 4] ∧
      [entry .null 0 2, entry (.int32 2) 7 3, entry (.int32 2) 5 1, entry (.int32 2) 5 4].Pairwise
        (Leads byRankThenLevel (fun _ _ _ => .error "no host") entryParameter) := by
  have done : sort byRankThenLevel (fun _ _ _ => .error "no host") entryParameter entries =
      .ok [entry .null 0 2, entry (.int32 2) 7 3, entry (.int32 2) 5 1, entry (.int32 2) 5 4] := rfl
  refine ⟨done, ((sort_stable _ _ _ _).1 ?_ _ done).2.1⟩
  intro k hk
  refine ⟨.int32, rfl, ?_⟩
  rintro v ⟨item, hitem, value⟩
  simp only [byRankThenLevel, List.mem_cons, List.not_mem_nil, or_false] at hk
  simp only [entries, List.mem_cons, List.not_mem_nil, or_false] at hitem
  rcases hk with rfl | rfl <;> rcases hitem with rfl | rfl | rfl | rfl <;> cases value <;>
    first
    | exact .inl rfl
    | exact .inr ⟨rfl, rfl⟩

end TypedExpr.OrderingKey
