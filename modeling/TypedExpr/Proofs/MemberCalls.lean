import TypedExpr.Eval
import TypedExpr.Proofs.ExactMatch
import TypedExpr.Proofs.LiteralMarks
import TypedExpr.Proofs.TypeSafety

/-! # Operands of just the right types

Where operands are just of the types that one overload of a predefined member or of an operator asks
for, the grammar takes this overload and passes the operands as they are. So the outcome is that of
the member or the operator for their values.
-/

namespace TypedExpr

/-- A host without functions. -/
def Host.silent : Host := fun _ _ _ => .error "no such function"

namespace Operand

variable {host : Host} {scope : Scope} {o l r : Operand} {args : List Operand} {t u result : Ty}
  {v w : Value} {passed : List (Ty × Value)}

/-- The operand is of this type, and has this value. -/
structure Denotes (o : Operand) (host : Host) (scope : Scope) (t : Ty) (v : Value) : Prop where
  ty_eq : o.ty = t
  eval_eq : o.expr.eval host scope = .ok v

/-- The operand is made as those of a text are, is of this type, and has this outcome. -/
structure Evaluates (o : Operand) (host : Host) (scope : Scope) (t : Ty) (outcome : Outcome Value) :
    Prop where
  read : o.IsRead
  ty_eq : o.ty = t
  eval_eq : o.expr.eval host scope = outcome

/-- The grammar makes one operand, wherever it stands, which is of the type and has the outcome. -/
def Gives (make : Nat → Except Diagnostic Operand) (host : Host) (scope : Scope) (t : Ty)
    (outcome : Outcome Value) : Prop :=
  ∃ o, (∀ pos, make pos = .ok o) ∧ o.Evaluates host scope t outcome

theorem Evaluates.denotes (h : o.Evaluates host scope t (.ok v)) : o.Denotes host scope t v :=
  ⟨h.ty_eq, h.eval_eq⟩

theorem evaluates_constant (host : Host) (scope : Scope) (v : Value) (t : Ty) :
    (plain (.constant v t)).Evaluates host scope t (.ok v) :=
  ⟨.plain _, rfl, rfl⟩

theorem denotes_constant (host : Host) (scope : Scope) (v : Value) (t : Ty) :
    (plain (.constant v t)).Denotes host scope t v := ⟨rfl, rfl⟩

theorem gives_plain {make : Nat → Except Diagnostic Operand} {e : Expr} {outcome : Outcome Value}
    (made : ∀ pos, make pos = .ok (plain e)) (type : e.ty = t)
    (value : e.eval host scope = outcome) : Gives make host scope t outcome :=
  ⟨plain e, made, .plain e, type, value⟩

/-! ## Arguments -/

/-- The arguments are of these types and have these values. -/
def Passed (host : Host) (scope : Scope) : List Operand → List (Ty × Value) → Prop :=
  List.Forall₂ fun o p => o.Denotes host scope p.1 p.2

theorem Passed.cons (h : o.Denotes host scope t v) (rest : Passed host scope args passed) :
    Passed host scope (o :: args) ((t, v) :: passed) :=
  List.Forall₂.cons h rest

theorem Denotes.alone (h : o.Denotes host scope t v) : Passed host scope [o] [(t, v)] :=
  .cons h .nil

theorem Passed.evalAll (h : Passed host scope args passed) :
    Expr.evalAll host (args.map (·.expr)) scope = .ok (passed.map (·.2)) := by
  induction h with
  | nil => rfl
  | cons first _ ih =>
      simp only [List.map_cons, Expr.evalAll, first.eval_eq, ih]
      rfl

theorem Passed.types (h : Passed host scope args passed) :
    args.map (·.ty) = passed.map (·.1) := by
  induction h with
  | nil => rfl
  | cons first _ ih => rw [List.map_cons, List.map_cons, first.ty_eq, ih]

/-! ## Overloads -/

/-- The overloads that ask for just these types. -/
def overloadsFor (types : List Ty) (methods : List Method) : List Method :=
  methods.filter fun m => decide (m.params = types.map fun t => ⟨t, false⟩)

theorem resolve_own {α : Type} {place : α} {methods : List Method} {m : Method}
    (h : Passed host scope args passed)
    (only : overloadsFor (passed.map (·.1)) methods = [m]) :
    Overload.resolve place methods args = .found place m args := by
  have exact_iff (n : Method) : n.params = (passed.map (·.1)).map (fun t => ⟨t, false⟩) ↔
      Overload.Exact args n := by
    rw [Overload.Exact, ← h.types, List.map_map]
    rfl
  obtain ⟨before, after, rfl, earlier, own, later⟩ := List.filter_eq_cons_iff.mp only
  refine Overload.Exact.resolve ((exact_iff m).mp (of_decide_eq_true own)) fun n hn exact => ?_
  have same := decide_eq_true ((exact_iff n).mpr exact)
  rcases List.mem_append.mp hn with hn | hn
  · exact earlier n hn same
  · exact List.filter_eq_nil_iff.mp later n hn same

/-- Where an argument goes to no type that is asked for, no overload applies. -/
theorem resolve_none {α : Type} {place : α} {methods : List Method} (mem : o ∈ args)
    (refused : ∀ m ∈ methods, ∀ p ∈ m.params, o.promote? p.ty false = none) :
    Overload.resolve place methods args = .notFound := by
  have refuses (ps : List Param) (h : ∀ p ∈ ps, o.promote? p.ty false = none) :
      Overload.promoteAll? ps args = none := by
    induction args generalizing ps with
    | nil => cases mem
    | cons a as ih =>
        cases ps with
        | nil => rfl
        | cons p ps =>
            rw [Overload.promoteAll?]
            rcases List.mem_cons.mp mem with rfl | mem
            · simp [h p List.mem_cons_self]
            · simp [ih mem ps fun q hq => h q (List.mem_cons_of_mem _ hq)]
  have none : methods.filterMap (Overload.candidate? args) = [] := by
    refine List.filterMap_eq_nil_iff.mpr fun m hm => ?_
    rw [Overload.candidate?, refuses m.params (refused m hm)]
    rfl
  rw [Overload.resolve, none]

/-- Only the word `null` is marked as null. -/
theorem IsRead.mark_ne_null (h : o.IsRead) (present : o.ty ≠ .object) : o.mark ≠ .null := by
  cases h with
  | plain => exact nofun
  | null => exact absurd rfl present
  | integer h =>
      obtain ⟨k, -, w, rfl, -⟩ := ofInteger_some h
      exact nofun
  | real h =>
      unfold ofReal at h
      split at h
      · cases h
        exact nofun
      · cases h
  | quoted h =>
      unfold ofQuoted at h
      dsimp only at h
      split at h
      · split at h
        · cases h
          exact nofun
        · cases h
      · cases h
        exact nofun

/-- An operand that does not convert to a type, and cannot be read as of it, does not go there. -/
theorem promote?_apart {target : Ty} (h : o.IsRead) (present : o.ty ≠ .object)
    (different : o.ty ≠ target) (apart : o.ty.convertsTo target = false)
    (unread : ∀ text, reread? text o.ty target.nonNullable = none) :
    o.promote? target false = none := by
  have literal : o.asLiteralOf? target = none := by
    unfold asLiteralOf?
    split
    · rfl
    · exact unread _
    · exact absurd ‹_› (h.mark_ne_null present)
  simp [promote?, different, literal, apart]

/-! ## Members -/

theorem property_gives {name name' : String} {g : Getter} (h : o.Denotes host scope t v)
    (found : Catalog.property? t name false = some (Catalog.computed name' result g)) :
    Gives (property t (some o) name) host scope result (g.get v) := by
  refine gives_plain (e := .member (some o.expr) t (Catalog.computed name' result g))
    (fun pos => ?_) rfl ?_
  · simp only [property, Option.isNone_some, found]
    rfl
  · change (o.expr.eval host scope >>= g.get) = _
    rw [h.eval_eq]
    rfl

/-- What the methods of a name are when those of a type come first. -/
theorem method_found {target : Option Operand} {name : String} {m : Method} {owner : Predefined}
    {overloads : List Method} {layers : List Layer} (h : Passed host scope args passed)
    (declared : Catalog.methods t name target.isNone = ⟨.predefined owner, overloads⟩ :: layers)
    (only : overloadsFor (passed.map (·.1)) overloads = [m]) (some : m.result = some result)
    (pos : Nat) : method t target name args pos =
      .ok (plain (.call (target.map (·.expr)) (.predefined owner) m (args.map (·.expr)))) := by
  simp only [method, declared, Overload.resolveLayers, resolve_own h only, some]
  rfl

/-- A method of a value that is not null. -/
theorem method_gives {name name' : String} {b : Builtin} {owner : Predefined}
    {overloads : List Method} {layers : List Layer} (ho : o.Denotes host scope t v)
    (present : v.isNull = false) (h : Passed host scope args passed)
    (declared : Catalog.methods t name false = ⟨.predefined owner, overloads⟩ :: layers)
    (only : overloadsFor (passed.map (·.1)) overloads =
      [Catalog.onInstance name' (passed.map (·.1)) result b]) :
    Gives (method t (some o) name args) host scope result
      (b.call result v (passed.map (·.2))) := by
  refine gives_plain (method_found h declared only rfl) rfl ?_
  simp only [Option.map_some, Expr.eval, Expr.evalTarget, ho.eval_eq, h.evalAll]
  change (if (true && v.isNull) = true then _ else _ : Outcome Value) = _
  rw [present]
  rfl

/-- A method of a type. -/
theorem static_gives {name name' : String} {b : Builtin} {owner : Predefined}
    {overloads : List Method} {layers : List Layer} (h : Passed host scope args passed)
    (declared : Catalog.methods t name true = ⟨.predefined owner, overloads⟩ :: layers)
    (only : overloadsFor (passed.map (·.1)) overloads =
      [Catalog.onType name' (passed.map (·.1)) result b]) :
    Gives (method t none name args) host scope result
      (b.call result .null (passed.map (·.2))) := by
  refine gives_plain (method_found h declared only rfl) rfl ?_
  simp only [Option.map_none, Expr.eval, Expr.evalTarget, h.evalAll]
  rfl

theorem construct_gives {name : String} {b : Builtin}
    (h : Passed host scope args passed)
    (only : overloadsFor (passed.map (·.1)) (Catalog.constructors t) =
      [Catalog.onType name (passed.map (·.1)) result b]) :
    Gives (construct t args) host scope result (b.call result .null (passed.map (·.2))) := by
  refine gives_plain
    (e := .new (Catalog.onType name (passed.map (·.1)) result b) (args.map (·.expr)))
    (fun pos => ?_) rfl ?_
  · simp only [construct, resolve_own h only]
  · simp only [Expr.eval, h.evalAll]
    rfl

/-- An indexer of a value that is not null. -/
theorem index_gives {name : String} {b : Builtin} {owner : Predefined} {overloads : List Method}
    {layers : List Layer} (ho : o.Denotes host scope t v) (present : v.isNull = false)
    (noArray : ∀ element, t ≠ .array element) (h : Passed host scope args passed)
    (declared : Catalog.indexers t = ⟨.predefined owner, overloads⟩ :: layers)
    (only : overloadsFor (passed.map (·.1)) overloads =
      [Catalog.onInstance name (passed.map (·.1)) result b]) :
    Gives (index o args) host scope result (b.call result v (passed.map (·.2))) := by
  have chosen : Overload.resolveLayers Layer.methods args (Catalog.indexers t) =
      .found ⟨.predefined owner, overloads⟩
        (Catalog.onInstance name (passed.map (·.1)) result b) args := by
    simp only [declared, Overload.resolveLayers, resolve_own h only]
  refine gives_plain (e := .call (some o.expr) (.predefined owner)
    (Catalog.onInstance name (passed.map (·.1)) result b) (args.map (·.expr)))
    (fun pos => ?_) rfl ?_
  · unfold index
    split
    · rename_i array
      exact absurd (ho.ty_eq.symm.trans array) (noArray _)
    · rw [ho.ty_eq, chosen]
  · simp only [Expr.eval, Expr.evalTarget, ho.eval_eq, h.evalAll]
    change (if (true && v.isNull) = true then _ else _ : Outcome Value) = _
    rw [present]
    rfl

/-! ## Operators -/

/-- What the grammar makes of a sum. -/
def plus (l r : Operand) (pos : Nat) : Except Diagnostic Operand := binary ⟨.plus, "+", pos⟩ l r

/-- What the grammar makes of a difference. -/
def minus (l r : Operand) (pos : Nat) : Except Diagnostic Operand := binary ⟨.minus, "-", pos⟩ l r

/-- What the grammar makes of the question if one operand is less than another. -/
def below (l r : Operand) (pos : Nat) : Except Diagnostic Operand :=
  binary ⟨.lessThan, "<", pos⟩ l r

/-- What the grammar makes of two operands that are joined to one text. -/
def joinedTexts (l r : Operand) (pos : Nat) : Except Diagnostic Operand :=
  binary ⟨.ampersand, "&", pos⟩ l r

variable {k : TokenKind} {text : String} {op : BinaryOp} {m : Method} {place : List Method}

/-- The first layer of signatures takes operands of just the types of one of them. -/
theorem resolveLayers_own {first : List Method} {rest : List (List Method)}
    (h : Passed host scope args passed)
    (only : overloadsFor (passed.map (·.1)) first = [m]) :
    Overload.resolveLayers id args (first :: rest) = .found first m args := by
  simp only [Overload.resolveLayers, id_eq, resolve_own h only]

/-- A layer is passed over if one operand goes to none of the types that it asks for: it is of
another type, which does not convert to them, and no literal of it is read as of them. -/
theorem resolveLayers_apart {first : List Method} {rest : List (List Method)} {targets : List Ty}
    {outcome : Outcome Value} (h : o.Evaluates host scope t outcome) (mem : o ∈ args)
    (present : t ≠ .object)
    (apart : ∀ m ∈ first, ∀ p ∈ m.params,
      t ≠ p.ty ∧ t.convertsTo p.ty = false ∧ p.ty.nonNullable ∈ targets)
    (unread : ∀ target ∈ targets, ∀ text, reread? text t target = none) :
    Overload.resolveLayers id args (first :: rest) = Overload.resolveLayers id args rest := by
  obtain ⟨read, rfl, -⟩ := h
  have none : Overload.resolve first first args = .notFound := by
    refine resolve_none mem fun m hm p hp => ?_
    obtain ⟨different, stays, target⟩ := apart m hm p hp
    exact promote?_apart read present different stays (unread _ target)
  simp only [Overload.resolveLayers, id_eq, none]

/-- An operator on operands of just the types of one of its signatures. -/
theorem binary_gives (hl : l.Denotes host scope t v) (hr : r.Denotes host scope u w)
    (sign : ∀ pos, Token.binaryOp? ⟨k, text, pos⟩ = some op)
    (noText : ¬ (k = .ampersand ∨ k = .plus ∧ (t = .string ∨ u = .string)))
    (arithmetic : op.isComparison = false) (present : OperatorClass.ofBinary op ≠ .logic)
    (chosen : Overload.resolveLayers id [l, r] (OperatorClass.ofBinary op).layers =
      .found place m [l, r]) :
    Gives (fun pos => binary ⟨k, text, pos⟩ l r) host scope (resultTy op t u)
      (op.arithmetic v w) := by
  refine gives_plain (e := .binary op l.expr r.expr (resultTy op t u)) (fun pos => ?_) rfl ?_
  · rw [← hl.ty_eq, ← hr.ty_eq] at noText
    simp only [binary, if_neg noText, sign, arithmetic, promoteBoth, chosen, ← hl.ty_eq,
      ← hr.ty_eq]
    rfl
  · rw [Expr.eval_binary present, hl.eval_eq, hr.eval_eq, arithmetic]
    rfl

/-- Which of two operands of one type is greater. Texts and members are compared otherwise. -/
theorem order_gives (hl : l.Denotes host scope t v) (hr : r.Denotes host scope t w)
    (sign : ∀ pos, Token.binaryOp? ⟨k, text, pos⟩ = some op) (noText : k ≠ .ampersand)
    (order : OperatorClass.ofBinary op = .relation) (noEnum : t.isEnum = false)
    (noString : t ≠ .string)
    (only : overloadsFor [t, t] OperatorClass.relationSignatures = [m]) :
    Gives (fun pos => binary ⟨k, text, pos⟩ l r) host scope .boolean (op.comparison v w) := by
  have chosen : Overload.resolveLayers id [l, r] (OperatorClass.ofBinary op).layers =
      .found OperatorClass.relationSignatures m [l, r] := by
    rw [order]
    exact resolveLayers_own (.cons hl hr.alone) only
  have comparison : op.isComparison = true := by cases op <;> first | rfl | cases order
  have unequal : isEquality op = false := by cases op <;> first | rfl | cases order
  have noString' : decide (l.ty = .string) = false := by simpa [hl.ty_eq] using noString
  refine gives_plain (e := .binary op l.expr r.expr .boolean) (fun pos => ?_) rfl ?_
  · have noJoin : ¬ (k = .ampersand ∨ k = .plus ∧ (l.ty = .string ∨ l.ty = .string)) := by
      rw [hl.ty_eq]
      simp [noText, noString]
    have related : relate ⟨k, text, pos⟩ op l r = .ok (l, r) := by
      simp [relate, unequal, hl.ty_eq, hr.ty_eq, noEnum, promoteBoth, chosen]
    have same : r.ty = l.ty := hr.ty_eq.trans hl.ty_eq.symm
    simp only [binary, same, if_neg noJoin, sign, comparison, if_true, compared, related]
    change (if (!isEquality op && decide (l.ty = .string)) = true then _ else _ :
      Except Diagnostic Operand) = _
    rw [noString', Bool.and_false, if_neg Bool.false_ne_true]
    rfl
  · have noLogic : OperatorClass.ofBinary op ≠ .logic := by
      rw [order]
      decide
    rw [Expr.eval_binary noLogic, hl.eval_eq, hr.eval_eq, comparison]
    rfl

end Operand
end TypedExpr
