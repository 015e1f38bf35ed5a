import TypedExpr.Proofs.DatedMembers
import TypedExpr.Proofs.Reaching
import TypedExpr.Proofs.TypeSafety

/-! # Evaluation stays within the range of dates

The dates that a function computes lie in the range if those of its arguments and externals do, and
those that it reads from texts: a text can show a date of another year, and nothing checks it. What
would be computed outside the range fails.
-/

namespace TypedExpr

open Outcome Value Source

variable {host : Host} {scope : Scope} {Γ : List Parameter}

/-! ## Scopes -/

/-- All dates in the values of a scope lie in the range. -/
def Scope.InRange (scope : Scope) : Prop := ∀ b ∈ scope, b.2.InRange

namespace Scope.InRange

theorem lookup (h : scope.InRange) (p : Parameter) : (scope.lookup p).Yields Value.InRange := by
  refine .ofOption fun v hv => ?_
  obtain ⟨b, found, rfl⟩ := Option.map_eq_some_iff.mp hv
  exact h b (List.mem_of_find?_eq_some found)

theorem bind {args : List Value} (h : scope.InRange) (hargs : ∀ v ∈ args, v.InRange)
    (params : List Parameter) : (scope.bind params args).InRange := by
  intro b hb
  rcases List.mem_append.mp hb with new | old
  · exact hargs b.2 (List.of_mem_zip (List.mem_reverse.mp new)).2
  · exact h b old

end Scope.InRange

namespace Expr

/-! ## Expressions -/

/-- The method that a node calls. -/
def method? : Expr → Option Method
  | call _ _ m _ | new m _ => some m
  | _ => none

/-- All dates that the node holds itself lie in the range: those of a constant or of a constant
    field. -/
def HoldsInRange : Expr → Prop
  | constant v _ => v.InRange
  | member _ _ m => ∀ v, m.access = .constant v → v.InRange
  | _ => True

/-- The node calls a function of the host. -/
def CallsHost (e : Expr) : Prop := ∃ m id, e.method? = some m ∧ m.body = .host id

/-- The node reads a date from a text. -/
def ReadsDate (e : Expr) : Prop := ∃ m, e.method? = some m ∧ m.ReadsDate

/-- The node brings no dates along but those of the range, and calls no function of the host. -/
structure Dated (e : Expr) : Prop where
  holds : e.HoldsInRange
  noHost : ¬ e.CallsHost

/-- A date that the node reads from a text lies in the range. -/
def ReadsInRange (host : Host) (e : Expr) (scope : Scope) : Prop :=
  e.ReadsDate → (eval host e scope).Yields Value.InRange

theorem Dated.call_inRange {e : Expr} (he : Dated e) (hr : ¬ e.ReadsDate) {m : Method}
    (hm : e.method? = some m) (receiver : Value) {args : List Value}
    (hargs : ∀ v ∈ args, v.InRange) : (m.call host receiver args).Yields Value.InRange :=
  Method.call_inRange host (fun id body => he.noHost ⟨m, id, hm, body⟩)
    (fun reads => hr ⟨m, hm, reads⟩) receiver hargs

mutual

/-- Evaluation gives only dates of the range, if the dates that it reads from texts are of it. -/
theorem eval_inRange : ∀ (e : Expr) {Γ : List Parameter} {scope : Scope}, scope.InRange →
    Everywhere (fun _ => Dated) Γ e → Throughout host (ReadsInRange host) (e, scope) →
    (eval host e scope).Yields Value.InRange
  | constant v t, _, _, _, he, _ => .ok (Dated.holds he)
  | parameter p, _, _, hs, _, _ => hs.lookup p
  | member none owner m, _, _, hs, he, _ =>
      Member.read_inRange he.1.holds (inRange_of_isDateless rfl)
  | member (some e) owner m, _, _, hs, he, ht =>
      .bind (eval_inRange e hs he.2 (ht.operand rfl id)) fun _ hr =>
        Member.read_inRange he.1.holds hr
  | call none owner m args, _, scope, hs, he, ht => by
      by_cases hr : (call none owner m args).ReadsDate
      · exact ht.root hr
      · have values := evalAll_inRange args hs he.2.2 (ht.operands fun _ => id)
        have called : (evalAll host args scope >>= fun vs => m.call host .null vs).Yields
            Value.InRange :=
          .bind values fun _ hvalues => he.1.call_inRange hr rfl .null hvalues
        exact called
  | call (some e) owner m args, _, scope, hs, he, ht => by
      by_cases hr : (call (some e) owner m args).ReadsDate
      · exact ht.root hr
      · refine .bind (eval_inRange e hs he.2.1 (ht.operand rfl id)).known fun v ⟨known, _⟩ => ?_
        refine .ite (fun _ => .error) fun there => ?_
        have values := evalAll_inRange args hs he.2.2 (ht.arguments known (by simpa using there))
        exact .bind values fun _ hvalues => he.1.call_inRange hr rfl v hvalues
  | arrayIndex target index _, _, _, hs, he, ht =>
      .bind (eval_inRange target hs he.2.1 (ht.operand rfl id)) fun _ hitems =>
        .andThen fun i => itemAt_inRange hitems i
  | new m args, _, _, hs, he, ht => by
      by_cases hr : (new m args).ReadsDate
      · exact ht.root hr
      · exact .bind (evalAll_inRange args hs he.2 (ht.operands fun _ => id)) fun _ hvalues =>
          he.1.call_inRange hr rfl _ hvalues
  | unary op operand, _, _, _, _, _ => .andThen fun v => (op.apply_dateless v).inRange
  | binary op left right t, _, _, _, _, _ => by
      -- only and or may leave their right operand alone
      by_cases hop : OperatorClass.ofBinary op = .logic
      · rcases logic_cases hop with rfl | rfl
        · exact .andThen fun v => (logical_dateless v _ _).inRange
        · exact .andThen fun v => (logical_dateless v _ _).inRange
      · rw [eval_binary hop]
        refine .andThen fun a => .andThen fun b => .ite (fun _ => ?_) fun _ => ?_
        · exact (op.comparison_dateless a b).inRange
        · exact op.arithmetic_inRange a b
  | conditional test whenTrue whenFalse, _, scope, hs, he, ht => by
      have tested : (eval host test scope).Yields (fun v => eval host test scope = .ok v) :=
        fun _ => id
      refine .bind tested fun v hv => ?_
      split
      · exact eval_inRange whenTrue hs he.2.2.1 (ht.asks (.whenTrue hv))
      · exact eval_inRange whenFalse hs he.2.2.2 (ht.asks (.whenFalse hv))
      · exact .error
      · exact .error
  | convert checked operand t, _, _, hs, he, ht =>
      .bind (eval_inRange operand hs he.2 (ht.operand rfl id)) fun _ hv =>
        convert_inRange hv checked t
  | lambda _, _, _, _, _, _ => .error
  | invoke f args t, Γ, scope, hs, he, ht => by
      cases f with
      | lambda l =>
          have values := (evalAll_inRange args hs he.2.2 (ht.operands fun _ => id)).known
          exact .bind values fun _ ⟨known, hvalues⟩ =>
            applyIn_inRange l hs he.2.1 hvalues (ht.asks (.body known))
      | _ => exact .error
  | newRecord r fields, _, _, hs, he, ht => by
      have values := evalAll_inRange fields hs he.2 (ht.operands fun _ => id)
      refine .bind values fun values hvalues => ?_
      split
      · rename_i made
        obtain rfl := Record.ofValues_ok made
        exact .ok (inRange_record.mpr hvalues)
      · exact .error
  | aggregate source op none t, _, _, hs, he, ht => by
      refine .bind (eval_inRange source hs he.2.1 (ht.operand rfl id)) fun _ hv => ?_
      exact .bind (itemsOf_inRange hv) fun _ hitems => op.run_inRange (by simp) hitems t
  | aggregate source op (some l) t, _, _, hs, he, ht => by
      have sources := (eval_inRange source hs he.2.1 (ht.operand rfl id)).known
      refine .bind sources fun v ⟨known, hv⟩ => ?_
      refine .bind (itemsOf_inRange hv).known fun items ⟨found, hitems⟩ => ?_
      refine op.run_inRange ?_ hitems t
      rintro _ ⟨⟩ item hitem
      exact applyIn_inRange l hs he.2.2 (by simpa using hitems item hitem)
        (ht.asks (.item known found hitem))

theorem evalAll_inRange : ∀ (es : List Expr) {Γ : List Parameter} {scope : Scope}, scope.InRange →
    InAll (fun _ => Dated) Γ es → AllThroughout host (ReadsInRange host) es scope →
    (evalAll host es scope).Yields fun values => ∀ v ∈ values, v.InRange
  | [], _, _, _, _, _ => .ok (by simp)
  | e :: es, _, _, hs, he, ht =>
      .bind (eval_inRange e hs he.1 ht.head).known fun _ ⟨known, hv⟩ =>
        .bind (evalAll_inRange es hs he.2 (ht.tail known)) fun _ hvs =>
          .ok (List.forall_mem_cons.mpr ⟨hv, hvs⟩)

theorem applyIn_inRange : ∀ (l : Lambda) {Γ : List Parameter} {scope : Scope} {args : List Value},
    scope.InRange → InLambda (fun _ => Dated) Γ l → (∀ v ∈ args, v.InRange) →
    Throughout host (ReadsInRange host) (l.body, scope.bind l.params args) →
    (applyIn host l scope args).Yields Value.InRange
  | ⟨params, body⟩, _, _, _, hs, he, hargs, ht =>
      .ite (fun _ => .error) fun _ => eval_inRange body (hs.bind hargs params) he ht

end

/-- The scopes of all parts that evaluation comes to have only dates of the range. -/
theorem Asks.scope_inRange {a b : Expr × Scope} (h : Asks host a b) (hs : a.2.InRange)
    (he : Everywhere (fun _ => Dated) [] a.1) (ht : Throughout host (ReadsInRange host) a) :
    b.2.InRange := by
  cases h with
  | operand | whenTrue | whenFalse => exact hs
  | @body l _ _ _ values h =>
      exact hs.bind (evalAll_inRange _ hs he.2.2 (ht.operands fun _ => id) values h) l.params
  | @item _ _ l _ _ v items item h hi mem =>
      have source := eval_inRange _ hs he.2.1 (ht.operand rfl id) v h
      have inside := itemsOf_inRange source items hi item mem
      exact hs.bind (by simpa using inside) l.params

/-- All parts that evaluation comes to give only dates of the range. -/
theorem Reaches.eval_inRange {a b : Expr × Scope} (h : Reaches host a b) (hs : a.2.InRange)
    (he : Everywhere (fun _ => Dated) [] a.1) (ht : Throughout host (ReadsInRange host) a) :
    (eval host b.1 b.2).Yields Value.InRange := by
  induction h using Relation.ReflTransGen.head_induction_on with
  | refl => exact Expr.eval_inRange _ hs he ht
  | head asks _ ih => exact ih (asks.scope_inRange hs he ht) (asks.everywhere he) (ht.asks asks)

/-! ## Computations that leave the range -/

/-- The exact date that a node would compute lies outside the range: a date moved by a span or by a
    method, or one constructed from a year. -/
inductive Leaves (host : Host) (scope : Scope) : Expr → Prop where
  | add {l r ty t s} (hl : eval host l scope = .ok (.dateTime t))
      (hr : eval host r scope = .ok (.timeSpan s)) (h : t.LeavesBy s) :
      Leaves host scope (.binary .add l r ty)
  | subtract {l r ty t s} (hl : eval host l scope = .ok (.dateTime t))
      (hr : eval host r scope = .ok (.timeSpan s)) (h : t.LeavesBy s.neg) :
      Leaves host scope (.binary .subtract l r ty)
  | call {target owner m args t values op} (ht : eval host target scope = .ok (.dateTime t))
      (hargs : evalAll host args scope = .ok values) (hm : m.body = .builtin (.dateTime op))
      (h : op.Leaves t values) : Leaves host scope (.call (some target) owner m args)
  | new {m args} {year : IntKind.int32.Word} {rest}
      (hargs : evalAll host args scope = .ok (.integer .int32 year :: rest))
      (hm : m.body = .builtin (.dateTime .new)) (h : year.val < 1 ∨ 9999 < year.val) :
      Leaves host scope (.new m args)

/-- A computation that would leave the range fails. -/
theorem Leaves.fails {e : Expr} (h : Leaves host scope e) :
    ∃ error, eval host e scope = .error error := by
  cases h with
  | add hl hr h | subtract hl hr h =>
      refine ⟨.overflow, ?_⟩
      rw [eval_binary (by decide), hl, hr]
      exact BinaryOp.checkedDate_fails fun _ => h.not_inRange
  | call ht hargs hm h =>
      refine ⟨.overflow, ?_⟩
      simp only [eval, evalTarget, ht, hargs]
      simp only [Method.call, hm]
      exact h.fails
  | new hargs hm h =>
      obtain ⟨error, fails⟩ := DateTimeMethod.new_fails .null h
      refine ⟨error, ?_⟩
      simp only [eval, hargs, Method.call, hm]
      exact fails

end Expr

/-! ## Members that a text can name -/

namespace Catalog

/-- The access is to no constant with a date outside the range. -/
private def isInRange : Access → Bool
  | .constant (.dateTime t) => t.inRange
  | .constant v => v.isDateless
  | _ => true

private theorem inRange_of_isInRange {v : Value} (h : isInRange (.constant v)) : v.InRange := by
  cases v with
  | dateTime t => exact inRange_dateTime.mpr h
  | _ => exact inRange_of_isDateless h

/-- The constant fields of all types hold dates of the range. -/
theorem declared_inRange {t : Ty} {m : Member} {v : Value} (hm : m ∈ declaredMembers t)
    (ha : m.access = .constant v) : v.InRange := by
  refine inRange_of_isInRange (ha ▸ ?_)
  cases t with
  | predefined p =>
      have checked : (declaredMembers (.predefined p)).all (isInRange ·.access) := by
        cases p <;> rfl
      exact List.all_eq_true.mp checked m hm
  | nullable inner =>
      simp only [declaredMembers, List.mem_cons, List.not_mem_nil, or_false] at hm
      rcases hm with rfl | rfl <;> rfl
  | array element =>
      cases List.mem_singleton.mp hm
      rfl
  | record r =>
      obtain ⟨i, p, -, rfl⟩ := mem_recordMembers hm
      rfl
  | cls c =>
      rcases List.mem_append.mp hm with hm | hm
      all_goals
        obtain ⟨p, -, rfl⟩ := List.mem_map.mp hm
        rfl
  | enum | sequence | lambda => cases hm

theorem property?_inRange {t : Ty} {name : String} {isStatic : Bool} {m : Member} {v : Value}
    (h : property? t name isStatic = some m) (ha : m.access = .constant v) : v.InRange := by
  obtain ⟨owner, -, found⟩ := List.exists_of_findSome?_eq_some h
  exact declared_inRange (List.mem_of_find?_eq_some found) ha

end Catalog

/-! ## Texts -/

/-- A call of the function for the arguments evaluates the expression in the scope. -/
def Lambda.Evaluates (l : Lambda) (host : Host) (args : List Value) (e : Expr) (scope : Scope) :
    Prop :=
  Expr.Reaches host (l.body, Scope.bind [] l.params args) (e, scope)

namespace Source

open TypedExpr.Expr

/-- The grammar brings no dates along but those of the range. -/
theorem holdsInRange_closed : Closed (fun _ => True) fun _ => HoldsInRange where
  family := .all
  ty _ := trivial
  formed h hw _ := by
    cases h with
    | constant => exact inRange_of_isDateless (isDateless_of_isWritten hw)
    | member h | staticMember _ h => exact fun v ha => Catalog.property?_inRange h ha
    | _ => trivial
  weaken h := h
  item _ := trivial
  within _ _ := trivial

variable {c : Context} {resultTy : Option Ty} {text : String} {l : Lambda} {cache : RecordCache}
  {args : List Value}

theorem readLambda_holdsInRange (h : readLambda c resultTy text = (.ok l, cache))
    (given : ∀ x, Given c.values x → x.Holds fun _ => HoldsInRange) :
    l.body.Everywhere (fun _ => HoldsInRange) [] := by
  simp only [readLambda] at h
  cases hread : readExpr c resultTy text with
  | mk result cache' =>
      rw [hread] at h
      cases result with
      | error e => cases h
      | ok body =>
          cases h
          exact (readExpr_good holdsInRange_closed (fun _ _ => trivial) given (fun _ _ => trivial)
            hread).1

/-- A function that is read and calls no function of the host, for arguments and externals with
    dates of the range, computes only dates of the range, in its result and on the way to it, if
    the dates that it reads from texts on the way are of the range. What would lead out of the range
    fails. -/
theorem readLambda_inRange (h : readLambda c resultTy text = (.ok l, cache))
    (given : ∀ x, Given c.values x → x.Holds fun _ => HoldsInRange)
    (noHost : l.body.Everywhere (fun _ e => ¬ e.CallsHost) []) (hargs : ∀ v ∈ args, v.InRange)
    (texts : ∀ e scope, l.Evaluates host args e scope → e.ReadsInRange host scope) :
    (l.evaluate host args).Yields Value.InRange ∧
    ∀ e scope, l.Evaluates host args e scope →
      (e.eval host scope).Yields Value.InRange ∧
      (e.Leaves host scope → ∃ error, e.eval host scope = .error error) := by
  have holds := readLambda_holdsInRange h given
  have dated : l.body.Everywhere (fun _ => Dated) [] :=
    (Everywhere.both _ holds noHost).imp fun _ _ he => ⟨he.1, he.2⟩
  have start : (Scope.bind [] l.params args).InRange :=
    Scope.InRange.bind (by simp [Scope.InRange]) hargs l.params
  have along : Throughout host (ReadsInRange host) (l.body, Scope.bind [] l.params args) :=
    fun b => texts b.1 b.2
  refine ⟨.andThen fun _ => ?_, fun e scope evaluates =>
    ⟨Reaches.eval_inRange evaluates start dated along, Leaves.fails⟩⟩
  obtain ⟨params, body⟩ := l
  exact .ite (fun _ => .error) fun _ => Expr.eval_inRange body start dated along

/-! ## Dates that texts show -/

private def noFunction : Host := fun _ _ _ => .error ""

/-- The expression is an external or a date that a text shows, and a span after that. -/
private def isMoved : Expr → Bool
  | .binary .add (.conditional (.parameter _) (.constant ..)
      (.call none _ ⟨_, _, some .dateTime, _, .builtin .parse⟩
        [.constant (.string "2020-02-29") _])) (.parameter _) _ => true
  | _ => false

private theorem isMoved_everywhere {e : Expr} (h : isMoved e) :
    e.Everywhere (fun _ e => ¬ e.CallsHost) [] ∧
      e.Everywhere (fun _ e => ∀ scope, e.ReadsInRange noFunction scope) [] := by
  unfold isMoved at h
  split at h
  · refine ⟨by simp [Everywhere, InTarget, InAll, CallsHost, method?], ?_⟩
    have shown : (Value.read "2020-02-29" .dateTime).Yields Value.InRange := by
      refine .ofOption fun v hv => ?_
      change (DateTime.ofText? (Text.trimChars "2020-02-29".toList)).map dateTime = some v at hv
      obtain ⟨t, ht, rfl⟩ := Option.map_eq_some_iff.mp hv
      have inside : (DateTime.ofText? (Text.trimChars "2020-02-29".toList)).all (·.inRange) := by
        decide +kernel
      rw [ht] at inside
      exact inRange_dateTime.mpr inside
    have quiet {e : Expr} (none : e.method? = none) (scope : Scope) :
        e.ReadsInRange noFunction scope := by
      rintro ⟨m, calls, -⟩
      simp [none] at calls
    exact ⟨quiet rfl, ⟨quiet rfl, quiet rfl, quiet rfl, fun _ _ => shown, trivial, quiet rfl,
      trivial⟩, quiet rfl⟩
  · cases h

private def leapDays : Context :=
  ⟨[⟨0, "b", .boolean⟩, ⟨1, "s", .timeSpan⟩], [.value (.dateTime .maxValue)], 3, .empty none⟩

theorem readLambda_inRange_moved :
    ∃ l cache, readLambda leapDays none "iif(b, @0, DateTime.Parse(\"2020-02-29\")) + s" =
        (.ok l, cache) ∧
      (l.evaluate noFunction [.boolean true, .timeSpan .zero]).Yields Value.InRange := by
  have shape : (readLambda leapDays none
      "iif(b, @0, DateTime.Parse(\"2020-02-29\")) + s").1.toOption.map
      (fun l => isMoved l.body) = some true := by decide +kernel
  obtain ⟨l, cache, read, moved⟩ := ok_of_map shape
  obtain ⟨noHost, texts⟩ := isMoved_everywhere moved
  have given (x : External) (hx : Given leapDays.values x) : x.Holds fun _ => HoldsInRange := by
    cases hx with
    | value mem =>
        cases List.mem_singleton.mp mem
        exact inRange_dateTime.mpr DateTime.inRange_maxValue
    | entry mem _ => cases List.mem_singleton.mp mem
  have args : ∀ v ∈ [Value.boolean true, .timeSpan .zero], v.InRange := by
    simp only [List.forall_mem_cons]
    exact ⟨inRange_of_isDateless rfl, inRange_of_isDateless rfl, by simp⟩
  exact ⟨l, cache, read, (readLambda_inRange read given noHost args fun e scope evaluates =>
    Throughout.of_everywhere texts (e, scope) evaluates).1⟩

private def noNames : Context := ⟨[], [], 3, .empty none⟩

/-- The expression reads a text that is written in it. -/
private def isParsed : Expr → Bool
  | .call none _ ⟨_, _, _, _, .builtin .parse⟩ [.constant ..] => true
  | _ => false

private theorem isParsed_quiet {e : Expr} (h : isParsed e) :
    e.Everywhere (fun _ e => ¬ e.CallsHost) [] := by
  unfold isParsed at h
  split at h
  · simp [Everywhere, InTarget, InAll, CallsHost, method?]
  · cases h

private def isOutside : Outcome Value → Bool
  | .ok (.dateTime t) => !t.inRange
  | _ => false

/-- A text shows a date of the year 0, and nothing asks whether it lies in the range. -/
theorem readLambda_reads_outside :
    ∃ l cache t,
      readLambda noNames none "DateTime.Parse(\"0000-12-31\")" = (.ok l, cache) ∧
      l.body.Everywhere (fun _ e => ¬ e.CallsHost) [] ∧
      l.evaluate noFunction [] = .ok (.dateTime t) ∧ ¬ t.inRange := by
  have ends : (readLambda noNames none "DateTime.Parse(\"0000-12-31\")").1.toOption.map
      (fun l => (isParsed l.body, isOutside (l.evaluate noFunction []))) = some (true, true) := by
    decide +kernel
  obtain ⟨l, cache, read, result⟩ := ok_of_map ends
  obtain ⟨parsed, outside⟩ := Prod.mk.inj result
  unfold isOutside at outside
  split at outside
  · rename_i t value
    exact ⟨l, cache, t, read, isParsed_quiet parsed, value, by simpa using outside⟩
  · cases outside

end Source
end TypedExpr
