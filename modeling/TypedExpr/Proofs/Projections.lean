import TypedExpr.Proofs.Ordering
import TypedExpr.Proofs.ProjectedTexts
import TypedExpr.Proofs.RecordRuns

/-! # Projecting and selecting

The items of a projection become the fields of a record, in order. A name reaches back to its item:
the member behind the projection has the type and the value of the item. Evaluation of the record
stops at the first item that fails.
-/

namespace TypedExpr

open Source

/-! ## Values of all fields -/

namespace Expr

variable {host : Host} {scope : Scope} {es : List Expr} {vs : List Value} {e : Expr} {v : Value}

/-- The error of the first expression that fails is the error of all. -/
theorem evalAll_error {k : Nat} {x : EvalError} (here : es[k]? = some e)
    (fails : eval host e scope = .error x)
    (before : ∀ j < k, ∀ d, es[j]? = some d → ∃ v, eval host d scope = .ok v) :
    evalAll host es scope = .error x := by
  induction es generalizing k with
  | nil => cases here
  | cons d es ih =>
      rw [evalAll]
      cases k with
      | zero =>
          cases here
          rw [fails]
          rfl
      | succ k =>
          obtain ⟨v, first⟩ := before 0 k.succ_pos d rfl
          have later := ih here fun j hj => before (j + 1) (Nat.succ_lt_succ hj)
          rw [first, later]
          rfl

/-- The value of a record that is made has the values of all expressions. -/
theorem eval_newRecord_ok {r : RecordType} (value : eval host (.newRecord r es) scope = .ok v) :
    ∃ vs, evalAll host es scope = .ok vs ∧ v = .record r vs := by
  rw [eval] at value
  obtain ⟨vs, values, value⟩ := Outcome.bind_ok.mp value
  refine ⟨vs, values, ?_⟩
  cases made : Record.ofValues r vs with
  | error x => rw [made] at value; cases value
  | ok record =>
      rw [made] at value
      cases value
      rw [Record.ofValues_ok made]
      rfl

theorem eval_newRecord_error {r : RecordType} {x : EvalError}
    (fails : evalAll host es scope = .error x) : eval host (.newRecord r es) scope = .error x := by
  rw [eval, fails]
  rfl

/-- A field of a record that is made has the value of the expression in its place. -/
theorem eval_field {r : RecordType} {k : Nat} {p : Property} (here : es[k]? = some e)
    (value : eval host (.newRecord r es) scope = .ok v) :
    ∃ u, eval host e scope = .ok u ∧
      eval host (.member (some (.newRecord r es)) (.record r) (Catalog.fieldMember k p)) scope =
        .ok u := by
  obtain ⟨vs, values, rfl⟩ := eval_newRecord_ok value
  have each := evalAll_ok_iff.mp values
  obtain ⟨inside, rfl⟩ := List.getElem?_eq_some_iff.mp here
  have within : k < vs.length := each.length_eq ▸ inside
  refine ⟨vs[k], each.get inside within, ?_⟩
  rw [eval, evalTarget, value]
  show Outcome.ofOption _ vs[k]? = .ok vs[k]
  rw [List.getElem?_eq_getElem within]
  rfl

end Expr

namespace Source

variable {c : Context} {env : Env} {n : Nat} {items : List NamedText} {e : Expr}
  {after between : RecordCache} {fields : List (String × Expr)} {r : RecordType}

/-- The texts are expressions, and the names are identifiers. -/
theorem isItem_of_accepts (host : Env.ofHost c.params c.values c.maxDepth = .ok env)
    (texts : ∀ i ∈ items, ∃ limit cache, { c with maxDepth := limit, cache }.accepts i.text)
    (names : ∀ i ∈ items, IsIdentifier i.name) : ∀ i ∈ items, i.IsItem env := by
  intro i mem
  obtain ⟨limit, cache, accepted⟩ := texts i mem
  obtain ⟨e, after, read⟩ := Context.accepts_iff.mp accepted
  have host' : Env.ofHost c.params c.values limit = .ok (env.limited limit) := by
    rw [Env.ofHost_limited c.params c.values c.maxDepth, host]
    rfl
  obtain ⟨o, s, reads, atEnd, -⟩ :=
    (readExpr_ok_iff (c := { c with maxDepth := limit, cache }) host').mp read
  exact ⟨⟨limit, cache, o, s, reads, atEnd⟩, names i mem⟩

/-- A name in any case reaches the field of its item. -/
theorem property_of_item {k : Nat} {i : NamedText} {f : String × Expr} {w : String}
    (made : between.getOrCreate (fields.map fun (name, e) => ⟨name, e.ty⟩) = .ok (r, after))
    (here : fields[k]? = some f) (named : f.1 = plainName i.name)
    (same : Text.sameIgnoringCase w i.name) (o : Operand) (pos : Nat) :
    Operand.property (.record r) (some o) (plainName w) pos =
      .ok (.plain (.member (some o.expr) (.record r) (Catalog.fieldMember k ⟨f.1, f.2.ty⟩))) := by
  have distinct := Catalog.distinct_of_getOrCreate made
  have place : r.properties[k]? = some ⟨f.1, f.2.ty⟩ := by
    rw [RecordCache.getOrCreate_properties made, List.getElem?_map, here]
    rfl
  have near : Text.sameIgnoringCase f.1 (plainName w) := named ▸ plainName_sameIgnoringCase same
  have keys : CaseMap.sameKey f.1 (plainName w) := by
    simp [CaseMap.sameKey, Text.toLowercase_eq near]
  have index := (RecordType.fieldIndex?_eq_some_iff distinct).mpr ⟨_, place, keys⟩
  have found := (Catalog.property?_record distinct (plainName w) _).mpr
    ⟨k, _, index, place, near, rfl⟩
  simp only [Operand.property, Option.isNone_some, found]
  rfl

/-- Projecting and then selecting is the identity. The items of a projection that is accepted are
accepted by themselves, with the record types that it has made. Behind the projection, the name of
an item, in any case of ASCII letters, is a text of the type of the item, and has the value of the
item wherever the projection has one. The projection fails with the error of the first item that
fails. -/
theorem projection_selects {c : Context} {items : List NamedText} {e : Expr} {after : RecordCache}
    (texts : ∀ i ∈ items, ∃ limit cache, { c with maxDepth := limit, cache }.accepts i.text)
    (names : ∀ i ∈ items, IsIdentifier i.name)
    (accepted : readExpr c none (projectionText items) = (.ok e, after)) :
    ∃ es : List Expr,
      List.Forall₂ (fun i d => readExpr { c with cache := after } none i.text = (.ok d, after))
        items es ∧
      (∀ (k : Nat) (i : NamedText) (d : Expr) (w : String), items[k]? = some i → es[k]? = some d →
        Text.sameIgnoringCase w i.name →
        ∃ m, readExpr c none (projectionText items ++ "." ++ w) = (.ok m, after) ∧ m.ty = d.ty ∧
          ∀ host scope v, Expr.eval host e scope = .ok v →
            ∃ u, Expr.eval host d scope = .ok u ∧ Expr.eval host m scope = .ok u) ∧
      ∀ (host : Host) (scope : Scope) (k : Nat) (d : Expr) (x : EvalError), es[k]? = some d →
        Expr.eval host d scope = .error x →
        (∀ j < k, ∀ b, es[j]? = some b → ∃ u, Expr.eval host b scope = .ok u) →
        Expr.eval host e scope = .error x := by
  by_cases none : items = []
  · subst none
    exact ⟨[], .nil, nofun, nofun⟩
  obtain ⟨env, n, host, levels⟩ := exists_levels (Context.accepts_iff.mpr ⟨e, after, accepted⟩)
  have written := isItem_of_accepts host texts names
  obtain ⟨o, known, rfl⟩ := exists_projectionAlone host levels none written accepted
  obtain ⟨fields, between, r, made, shaped, rfl⟩ := projectionAlone_ok known
  obtain ⟨-, -, extended⟩ := RecordCache.getOrCreate_ok shaped
  have each := (items_accepted host levels written made).2 after extended
  refine ⟨fields.map (·.2), ?_, ?_, ?_⟩
  · exact List.forall₂_map_right_iff.mpr (each.imp fun _ _ h => h.2)
  · intro k i d w hi hd same
    rw [List.getElem?_map, Option.map_eq_some_iff] at hd
    obtain ⟨f, hf, rfl⟩ := hd
    have name := (names i (List.mem_of_getElem? hi)).ofCase same
    obtain ⟨inside, rfl⟩ := List.getElem?_eq_some_iff.mp hi
    obtain ⟨inside', rfl⟩ := List.getElem?_eq_some_iff.mp hf
    have named := (each.get inside inside').1
    have property := property_of_item shaped hf named same
      (.plain (.newRecord r (fields.map (·.2))))
    refine ⟨_, readExpr_selection host levels none written known name property, rfl, ?_⟩
    intro host scope v value
    exact Expr.eval_field (by rw [List.getElem?_map, hf]; rfl) value
  · intro host scope k d x hd fails before
    exact Expr.eval_newRecord_error (Expr.evalAll_error hd fails before)

theorem projection_selects_nested :
    let c : Context := ⟨[], [], 3, .empty none⟩
    let items : List NamedText := [⟨"1", "A"⟩, ⟨"new(2 as b)", "@C"⟩]
    ∃ (e d m : Expr) (after : RecordCache),
      readExpr c none (projectionText items) = (.ok e, after) ∧
      readExpr { c with cache := after } none "new(2 as b)" = (.ok d, after) ∧
      readExpr c none (projectionText items ++ "." ++ "@c") = (.ok m, after) ∧ m.ty = d.ty := by
  intro c items
  have shows : (readExpr c none (projectionText items)).1.toOption.map Expr.toText =
      some "new DynamicClass2(A = 1, C = new DynamicClass1(b = 2))" := by decide +kernel
  obtain ⟨e, after, accepted, -⟩ := ok_of_map shows
  have texts : ∀ i ∈ items, ∃ limit cache, { c with maxDepth := limit, cache }.accepts i.text :=
    List.forall_mem_cons.mpr ⟨⟨1, .empty none, by decide +kernel⟩,
      List.forall_mem_singleton.mpr ⟨2, .empty none, by decide +kernel⟩⟩
  have names : ∀ i ∈ items, IsIdentifier i.name :=
    List.forall_mem_cons.mpr ⟨⟨'A', [], rfl, by decide, nofun⟩, List.forall_mem_singleton.mpr
      ⟨'@', ['C'], rfl, by decide, List.forall_mem_singleton.mpr (by decide)⟩⟩
  obtain ⟨es, each, selects, -⟩ := projection_selects texts names accepted
  obtain ⟨_, _, -, rest, rfl⟩ := List.forall₂_cons_left_iff.mp each
  obtain ⟨d, _, second, -, rfl⟩ := List.forall₂_cons_left_iff.mp rest
  obtain ⟨m, selected, type, -⟩ := selects 1 _ d "@c" rfl rfl (by decide)
  exact ⟨e, d, m, after, accepted, second, selected, type⟩

end Source

end TypedExpr
