import TypedExpr.Eval
import TypedExpr.Proofs.Outcome
import Mathlib.Data.List.Forall2

/-! # The keys that a sort reads

A sort gives its parameter to the selectors of all its keys at once, and does not ask whether the
item conforms to the type of the parameter. A function does ask. The two read the same keys of the
items that conform; of the others the function refuses every one, and the sort reads by position
whatever the item has there.
-/

namespace TypedExpr

/-- The values of expressions, one by one. -/
theorem Expr.evalAll_ok_iff {host : Host} {scope : Scope} {es : List Expr} {vs : List Value} :
    evalAll host es scope = .ok vs ↔
      List.Forall₂ (fun e v => eval host e scope = .ok v) es vs := by
  induction es generalizing vs with
  | nil => simp [evalAll, eq_comm]
  | cons e es ih =>
      rw [evalAll, Outcome.bind_ok]
      constructor
      · rintro ⟨v, first, values⟩
        obtain ⟨us, later, same⟩ := Outcome.bind_ok.mp values
        cases same
        exact .cons first (ih.mp later)
      · rintro (_ | ⟨first, later⟩)
        exact ⟨_, first, Outcome.bind_ok.mpr ⟨_, ih.mpr later, rfl⟩⟩

namespace OrderingKey

/-- The function of one item that a key stands for. -/
def selectorOf (k : OrderingKey) (p : Parameter) : Lambda := ⟨[p], k.selector⟩

/-- A function of one item asks only whether the item conforms before it does what a key does. -/
theorem evaluate_selectorOf (k : OrderingKey) (host : Host) (p : Parameter) (item : Value) :
    (k.selectorOf p).evaluate host [item] =
      if item.conformsTo p.ty then k.selector.eval host [(p, item)]
      else .error (.cast item p.ty) := by
  by_cases h : item.conformsTo p.ty
  · simp [Lambda.evaluate, Lambda.checkArgs, Lambda.apply, selectorOf, Expr.applyIn, Scope.bind, h]
    rfl
  · simp [Lambda.evaluate, Lambda.checkArgs, selectorOf, h]
    rfl

/-- The keys of an item are the values of the selectors, one by one. -/
theorem keysOf_ok {keys host p item values} (h : keysOf keys host p item = .ok values) :
    List.Forall₂ (fun k v => k.selector.eval host [(p, item)] = .ok v) keys values := by
  simpa using Expr.evalAll_ok_iff.mp h

/-- Each row holds an item, and the rows hold the items in order. -/
theorem withKeys_items {keys host p items rows} (h : withKeys keys host p items = .ok rows) :
    rows.map (·.2) = items := by
  induction items generalizing rows with
  | nil =>
      cases h
      rfl
  | cons v vs ih =>
      simp only [withKeys] at h
      obtain ⟨key, -, h⟩ := Outcome.bind_ok.mp h
      obtain ⟨rest, hrest, h⟩ := Outcome.bind_ok.mp h
      cases h
      exact congrArg (v :: ·) (ih hrest)

/-- Each row holds the keys of its own item. -/
theorem withKeys_keys {keys host p items rows} (h : withKeys keys host p items = .ok rows) :
    ∀ row ∈ rows, keysOf keys host p row.2 = .ok row.1 := by
  induction items generalizing rows with
  | nil =>
      cases h
      simp
  | cons v vs ih =>
      simp only [withKeys] at h
      obtain ⟨key, hkey, h⟩ := Outcome.bind_ok.mp h
      obtain ⟨rest, hrest, h⟩ := Outcome.bind_ok.mp h
      cases h
      intro row hrow
      rcases List.mem_cons.mp hrow with rfl | hrow
      · exact hkey
      · exact ih hrest row hrow

/-- When a sort succeeds, it arranges rows of keys and items. Every key is what its function
    returns for the item if the item conforms to the parameter; if it does not, the sort has read
    a key all the same, where the function refuses the item. -/
theorem sort_reads_keys {keys host p items sorted} (h : sort keys host p items = .ok sorted) :
    ∃ rows, withKeys keys host p items = .ok rows ∧ rows.map (·.2) = items ∧
      sorted = arrange keys rows ∧
      ∀ row ∈ rows, List.Forall₂
        (fun k v => (selectorOf k p).evaluate host [row.2] =
          if row.2.conformsTo p.ty then .ok v else .error (.cast row.2 p.ty)) keys row.1 := by
  simp only [sort] at h
  obtain ⟨rows, hrows, h⟩ := Outcome.bind_ok.mp h
  cases h
  refine ⟨rows, hrows, withKeys_items hrows, rfl, ?_⟩
  intro row hrow
  refine (keysOf_ok (withKeys_keys hrows row hrow)).imp ?_
  intro k v hv
  rw [evaluate_selectorOf, hv]

private def abShape : RecordType := ⟨1, [⟨"a", .int32⟩, ⟨"b", .int32⟩]⟩

private def baShape : RecordType := ⟨2, [⟨"b", .int32⟩, ⟨"a", .int32⟩]⟩

private def abRow : Value := .record abShape [.int32 1, .int32 2]

private def baRow : Value := .record baShape [.int32 5, .int32 0]

private def row : Parameter := ⟨0, "", .record abShape⟩

/-- The key that the text `a` stands for. -/
private def byA : OrderingKey :=
  ⟨.member (some (.parameter row)) (.record abShape) ⟨"a", .int32, false, false, .field 0⟩, true⟩

private def noHost : Host := fun _ _ _ => .error "no host"

theorem sort_reads_keys_of_one_shape :
    sort [byA] noHost row [abRow, abRow] = .ok [abRow, abRow] ∧
      ∃ rows, withKeys [byA] noHost row [abRow, abRow] = .ok rows ∧
        rows.map (·.2) = [abRow, abRow] ∧ [abRow, abRow] = arrange [byA] rows ∧
        ∀ r ∈ rows, List.Forall₂
          (fun k v => (selectorOf k row).evaluate noHost [r.2] =
            if r.2.conformsTo row.ty then .ok v else .error (.cast r.2 row.ty)) [byA] r.1 :=
  ⟨rfl, sort_reads_keys rfl⟩

/-- A row whose `a` is the second field is sorted by its first field, five, instead of its `a`,
    zero. The function of the key refuses the row. -/
theorem sort_misreads_other_shape :
    sort [byA] noHost row [abRow, baRow] = .ok [abRow, baRow] ∧
      withKeys [byA] noHost row [abRow, baRow] =
        .ok [([.int32 1], abRow), ([.int32 5], baRow)] ∧
      (selectorOf byA row).evaluate noHost [baRow] = .error (.cast baRow row.ty) :=
  ⟨rfl, rfl, rfl⟩

end OrderingKey
end TypedExpr
