import TypedExpr.Eval
import TypedExpr.Proofs.Integer
import TypedExpr.Proofs.Outcome

/-! # Predicates on sequences

Keeping items, counting them, and asking for some or for all of them, by one predicate that is
true, false or unknown for each item, or fails. The operations stop at different items. Still each
of them says what the items that are kept tell, and where the predicate fails it fails with the same
error, unless an item before has answered already.
-/

namespace TypedExpr

/-- The function of an operation, in a scope. -/
def Lambda.selection (l : Lambda) (host : Host) (scope : Scope) : AggregateOp.Selection :=
  ⟨fun item => Expr.applyIn host l scope [item], l.resultTy⟩

/-- An operation is carried out on the items of its source. -/
theorem Expr.eval_aggregate {host : Host} {scope : Scope} {source : Expr} {items : List Value}
    (h : (eval host source scope >>= Value.itemsOf) = .ok items) (op : AggregateOp) (l : Lambda)
    (t : Ty) : eval host (.aggregate source op (some l) t) scope =
      op.run (some (l.selection host scope)) items t := by
  rw [eval, ← bind_assoc, h]
  rfl

namespace AggregateOp.Selection

variable {s : Selection} {v : Value} {items before after kept : List Value} {e : EvalError}

/-! ## What a predicate says of an item -/

def IsTrue (s : Selection) (v : Value) : Prop := s.select v = .ok (.boolean true)

/-- False or unknown. -/
def IsNotTrue (s : Selection) (v : Value) : Prop :=
  s.select v = .ok (.boolean false) ∨ s.select v = .ok .null

/-- The selector fails, or its result is no truth value. -/
inductive Fails (s : Selection) (v : Value) : EvalError → Prop where
  | selector {error : EvalError} (h : s.select v = .error error) : Fails s v error
  | noTruth {u : Value} (h : s.select v = .ok u) (present : u.isNull = false)
      (other : u.boolean? = none) : Fails s v (.cast u .boolean)

theorem IsTrue.holds (h : s.IsTrue v) : s.holds v = .ok true := by
  rw [Selection.holds, h]
  rfl

theorem IsNotTrue.holds (h : s.IsNotTrue v) : s.holds v = .ok false := by
  rcases h with h | h
  all_goals
    rw [Selection.holds, h]
    rfl

theorem Fails.holds (h : s.Fails v e) : s.holds v = .error e := by
  cases h with
  | selector h =>
      rw [Selection.holds, h]
      rfl
  | @noTruth u h present other =>
      rw [Selection.holds, h]
      cases u with
      | null => cases present
      | boolean => cases other
      | _ => rfl

theorem IsNotTrue.not_isTrue (h : s.IsNotTrue v) : ¬ s.IsTrue v := by
  intro holds
  cases holds.holds.symm.trans h.holds

/-- Of each item the predicate is true, is not true, or fails. -/
theorem cases_of_item (s : Selection) (v : Value) :
    s.IsTrue v ∨ s.IsNotTrue v ∨ ∃ e, s.Fails v e := by
  cases result : s.select v with
  | error e => exact .inr (.inr ⟨e, .selector result⟩)
  | ok u =>
      cases u with
      | boolean b =>
          cases b with
          | true => exact .inl result
          | false => exact .inr (.inl (.inl result))
      | null => exact .inr (.inl (.inr result))
      | _ => exact .inr (.inr ⟨_, .noTruth result rfl rfl⟩)

/-- An item with the other answer is passed over. -/
theorem meets_other {answer : Bool} (h : s.holds v = .ok (!answer)) (items : List Value) :
    s.meets answer (v :: items) = s.meets answer items := by
  rw [meets, h]
  cases answer <;> rfl

theorem meets_answer {answer : Bool} (h : s.holds v = .ok answer) (items : List Value) :
    s.meets answer (v :: items) = .ok true := by
  rw [meets, h]
  cases answer <;> rfl

theorem meets_error (h : s.holds v = .error e) (answer : Bool) (items : List Value) :
    s.meets answer (v :: items) = .error e := by
  rw [meets, h]
  rfl

/-! ## Items that are kept -/

/-- The predicate answers for all items, and those of which it is true are kept, in order. -/
inductive Keeps (s : Selection) : List Value → List Value → Prop where
  | nil : Keeps s [] []
  | take {first : Value} {rest some : List Value} (h : s.IsTrue first) (later : Keeps s rest some) :
      Keeps s (first :: rest) (first :: some)
  | drop {first : Value} {rest some : List Value} (h : s.IsNotTrue first)
      (later : Keeps s rest some) : Keeps s (first :: rest) some

/-- The predicate fails at the item, and answers for those before it. -/
structure StopsAt (s : Selection) (before : List Value) (v : Value) (e : EvalError) : Prop where
  answers : ∀ u ∈ before, s.IsTrue u ∨ s.IsNotTrue u
  fails : s.Fails v e

theorem StopsAt.tail {u : Value} (h : s.StopsAt (u :: before) v e) : s.StopsAt before v e :=
  ⟨fun w hw => h.answers w (List.mem_cons_of_mem u hw), h.fails⟩

/-- Either the predicate answers for all items, or there is a first one at which it fails. -/
theorem keeps_or_stops (s : Selection) (items : List Value) : (∃ kept, s.Keeps items kept) ∨
    ∃ before v after e, items = before ++ v :: after ∧ s.StopsAt before v e := by
  induction items with
  | nil => exact .inl ⟨[], .nil⟩
  | cons v items ih =>
      have further (answers : s.IsTrue v ∨ s.IsNotTrue v) {before u e}
          (h : s.StopsAt before u e) : s.StopsAt (v :: before) u e :=
        ⟨List.forall_mem_cons.mpr ⟨answers, h.answers⟩, h.fails⟩
      rcases s.cases_of_item v with holds | fails | ⟨e, error⟩
      · rcases ih with ⟨kept, later⟩ | ⟨before, u, after, e, rfl, stops⟩
        · exact .inl ⟨_, .take holds later⟩
        · exact .inr ⟨v :: before, u, after, e, rfl, further (.inl holds) stops⟩
      · rcases ih with ⟨kept, later⟩ | ⟨before, u, after, e, rfl, stops⟩
        · exact .inl ⟨_, .drop fails later⟩
        · exact .inr ⟨v :: before, u, after, e, rfl, further (.inr fails) stops⟩
      · exact .inr ⟨[], v, items, e, rfl, List.forall_mem_nil _, error⟩

theorem Keeps.length_le (h : s.Keeps items kept) : kept.length ≤ items.length := by
  induction h with
  | nil => exact Nat.le_refl _
  | take _ _ ih => exact Nat.succ_le_succ ih
  | drop _ _ ih => exact Nat.le_succ_of_le ih

theorem Keeps.keep (h : s.Keeps items kept) : s.keep items = .ok kept := by
  induction h with
  | nil => rfl
  | take h _ ih =>
      rw [Selection.keep, h.holds, ih]
      rfl
  | drop h _ ih =>
      rw [Selection.keep, h.holds, ih]
      rfl

/-- Some item is kept just where one answers with true. -/
theorem Keeps.meets_true (h : s.Keeps items kept) :
    ∃ b, s.meets true items = .ok b ∧ (b = true ↔ kept ≠ []) := by
  induction h with
  | nil => exact ⟨false, rfl, by simp⟩
  | take h _ _ => exact ⟨true, meets_answer h.holds _, by simp⟩
  | drop h _ ih =>
      rw [meets_other h.holds]
      exact ih

/-- Some item is left out just where one answers with something else. -/
theorem Keeps.meets_false (h : s.Keeps items kept) :
    ∃ b, s.meets false items = .ok b ∧ (b = true ↔ kept ≠ items) := by
  induction h with
  | nil => exact ⟨false, rfl, by simp⟩
  | take h _ ih =>
      rw [meets_other h.holds]
      simpa using ih
  | drop h later _ =>
      refine ⟨true, meets_answer h.holds _, iff_of_true rfl ?_⟩
      -- what is left out makes the kept items fewer
      have fewer := later.length_le
      rintro rfl
      exact Nat.not_succ_le_self _ fewer

theorem StopsAt.keep (h : s.StopsAt before v e) (after : List Value) :
    s.keep (before ++ v :: after) = .error e := by
  induction before with
  | nil =>
      rw [List.nil_append, Selection.keep, h.fails.holds]
      rfl
  | cons u before ih =>
      rw [List.cons_append, Selection.keep, ih h.tail]
      rcases h.answers u List.mem_cons_self with holds | fails
      · rw [holds.holds]
        rfl
      · rw [fails.holds]
        rfl

/-- The items before the one at which the predicate fails settle a question, or it fails. -/
theorem StopsAt.meets (h : s.StopsAt before v e) (answer : Bool) (after : List Value) :
    ((∃ u ∈ before, s.holds u = .ok answer) →
        s.meets answer (before ++ v :: after) = .ok true) ∧
      ((¬ ∃ u ∈ before, s.holds u = .ok answer) →
        s.meets answer (before ++ v :: after) = .error e) := by
  induction before with
  | nil =>
      refine ⟨?_, fun _ => meets_error h.fails.holds answer after⟩
      rintro ⟨u, none, -⟩
      cases none
  | cons u before ih =>
      rw [List.cons_append]
      by_cases met : s.holds u = .ok answer
      · rw [meets_answer met]
        exact ⟨fun _ => rfl, fun none => absurd ⟨u, List.mem_cons_self, met⟩ none⟩
      · have other : s.holds u = .ok (!answer) := by
          rcases h.answers u List.mem_cons_self with yes | no
          · cases answer with
            | true => exact absurd yes.holds met
            | false => exact yes.holds
          · cases answer with
            | true => exact no.holds
            | false => exact absurd no.holds met
        rw [meets_other other]
        simpa [met] using ih h.tail

/-- Among the items for which the predicate answers, it holds of those of which it is true. -/
theorem StopsAt.holds_iff (h : s.StopsAt before v e) {u : Value} (known : u ∈ before) :
    (s.holds u = .ok true ↔ s.IsTrue u) ∧ (s.holds u = .ok false ↔ ¬ s.IsTrue u) := by
  rcases h.answers u known with yes | no
  · simp [yes.holds, yes]
  · simp [no.holds, no.not_isTrue]

end AggregateOp.Selection

/-! ## The operations -/

namespace AggregateOp

theorem countOf_word {n : Nat} (short : n < 2 ^ 31) :
    ∃ w : IntKind.int32.Word, countOf n = .ok (.integer .int32 w) ∧ w.val = n := by
  have holds : IntKind.int32.Holds n := IntKind.holds_int32.mpr (by omega)
  refine ⟨_, ?_, IntKind.wrap_val holds⟩
  rw [countOf, IntKind.ofInt?_of_holds holds]
  rfl

end AggregateOp

namespace Expr

open AggregateOp

/-- The operations with one predicate agree. Where the items that it keeps are known, so are their
number, whether there is one, and whether all are kept. Where it fails at an item, counting fails
with the same error, and the questions for some and for all items do so unless an item before
settles them. -/
theorem predicates_agree (host : Host) (scope : Scope) (source : Expr) (l : Lambda)
    (ty : AggregateOp → Ty) (items : List Value)
    (h : (eval host source scope >>= Value.itemsOf) = .ok items) (short : items.length < 2 ^ 31) :
    let s := l.selection host scope
    let gives (op : AggregateOp) := eval host (.aggregate source op (some l) (ty op)) scope
    (∀ w, gives .filter = .ok w → ∃ kept, w = .sequence kept ∧ s.Keeps items kept ∧
      (∃ n : IntKind.int32.Word,
        gives .count = .ok (.integer .int32 n) ∧ n.val = kept.length) ∧
      (∃ b, gives .any = .ok (.boolean b) ∧ (b = true ↔ kept ≠ [])) ∧
      ∃ b, gives .all = .ok (.boolean b) ∧ (b = true ↔ kept = items)) ∧
    (∀ e, gives .filter = .error e →
      ∃ before v after, items = before ++ v :: after ∧ s.StopsAt before v e) ∧
    ∀ before v after e, items = before ++ v :: after → s.StopsAt before v e →
      gives .filter = .error e ∧ gives .count = .error e ∧
      ((∃ u ∈ before, s.IsTrue u) → gives .any = .ok (.boolean true)) ∧
      ((¬ ∃ u ∈ before, s.IsTrue u) → gives .any = .error e) ∧
      ((∃ u ∈ before, ¬ s.IsTrue u) → gives .all = .ok (.boolean false)) ∧
      ((¬ ∃ u ∈ before, ¬ s.IsTrue u) → gives .all = .error e) := by
  intro s gives
  have carried (op : AggregateOp) : gives op = op.runWith s items (ty op) := eval_aggregate h op l _
  have stopped : ∀ before v after e, items = before ++ v :: after → s.StopsAt before v e →
      gives .filter = .error e := by
    rintro before v after e rfl stops
    rw [carried, runWith, stops.keep]
    rfl
  refine ⟨fun w filtered => ?_, fun e failed => ?_, fun before v after e parts stops => ?_⟩
  · rcases s.keeps_or_stops items with ⟨kept, keeps⟩ | ⟨before, v, after, e, parts, stops⟩
    · rw [carried, runWith, keeps.keep] at filtered
      cases filtered
      obtain ⟨n, counted, number⟩ := countOf_word (Nat.lt_of_le_of_lt keeps.length_le short)
      obtain ⟨some, met, nonempty⟩ := keeps.meets_true
      obtain ⟨missing, met', fewer⟩ := keeps.meets_false
      refine ⟨kept, rfl, keeps, ⟨n, ?_, number⟩, ⟨some, ?_, nonempty⟩, ⟨!missing, ?_, ?_⟩⟩
      · rw [carried, runWith, keeps.keep]
        exact counted
      · rw [carried, runWith, met]
        rfl
      · rw [carried, runWith, met']
        rfl
      · cases missing <;> simp_all
    · cases filtered.symm.trans (stopped before v after e parts stops)
  · rcases s.keeps_or_stops items with ⟨kept, keeps⟩ | ⟨before, v, after, e', parts, stops⟩
    · rw [carried, runWith, keeps.keep] at failed
      cases failed
    · cases failed.symm.trans (stopped before v after e' parts stops)
      exact ⟨before, v, after, parts, stops⟩
  · refine ⟨stopped before v after e parts stops, ?_⟩
    subst parts
    have yes : (∃ u ∈ before, s.IsTrue u) ↔ ∃ u ∈ before, s.holds u = .ok true :=
      exists_congr fun u => and_congr_right fun known => (stops.holds_iff known).1.symm
    have no : (∃ u ∈ before, ¬ s.IsTrue u) ↔ ∃ u ∈ before, s.holds u = .ok false :=
      exists_congr fun u => and_congr_right fun known => (stops.holds_iff known).2.symm
    obtain ⟨found, unfound⟩ := stops.meets true after
    obtain ⟨missed, unmissed⟩ := stops.meets false after
    rw [yes, no]
    refine ⟨?_, fun h => ?_, fun h => ?_, fun h => ?_, fun h => ?_⟩
    · rw [carried, runWith, stops.keep]
      rfl
    · rw [carried, runWith, found h]
      rfl
    · rw [carried, runWith, unfound h]
      rfl
    · rw [carried, runWith, missed h]
      rfl
    · rw [carried, runWith, unmissed h]
      rfl

/-- The function that asks whether six divided by an item is three. -/
private def isHalfOfSix : Lambda :=
  let item : Parameter := ⟨0, "", .int32⟩
  ⟨[item], .binary .equal (.binary .divide (.constant (.int32 6) .int32) (.parameter item) .int32)
    (.constant (.int32 3) .int32) .boolean⟩

/-- Six is divided by three, two and zero; the answer for two comes before the error. -/
theorem predicates_agree_quotients :
    let host : Host := fun _ _ _ => .error "no host"
    let items : List Value := [.int32 3, .int32 2, .int32 0]
    let ty : AggregateOp → Ty
      | .filter => .sequence .int32
      | .count => .int32
      | _ => .boolean
    let gives (op : AggregateOp) :=
      eval host (.aggregate (.constant (.sequence items) (.sequence .int32)) op
        (some isHalfOfSix) (ty op)) []
    gives .filter = .error .divideByZero ∧ gives .count = .error .divideByZero ∧
      gives .any = .ok (.boolean true) ∧ gives .all = .ok (.boolean false) := by
  intro host items ty gives
  have two : (isHalfOfSix.selection host []).IsTrue (.int32 2) := rfl
  have three : (isHalfOfSix.selection host []).IsNotTrue (.int32 3) := .inl rfl
  have stops : (isHalfOfSix.selection host []).StopsAt [.int32 3, .int32 2] (.int32 0)
      .divideByZero := by
    refine ⟨?_, .selector rfl⟩
    simp only [List.forall_mem_cons]
    exact ⟨.inr three, .inl two, List.forall_mem_nil _⟩
  obtain ⟨-, -, failing⟩ := predicates_agree host []
    (.constant (.sequence items) (.sequence .int32)) isHalfOfSix ty items rfl (by decide)
  obtain ⟨kept, counted, some, -, every, -⟩ := failing _ _ [] _ rfl stops
  exact ⟨kept, counted, some ⟨_, by simp, two⟩, every ⟨_, List.mem_cons_self, three.not_isTrue⟩⟩

end Expr
end TypedExpr
