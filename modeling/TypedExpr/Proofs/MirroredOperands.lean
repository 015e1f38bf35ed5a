import TypedExpr.Proofs.FormedOperators
import TypedExpr.Proofs.LiteralMarks
import TypedExpr.Proofs.OverloadChoice
import TypedExpr.Proofs.Types

/-! # Operands that change sides

A comparison brings its operands to one type in one of three ways, and each of them succeeds on the
operands in either order. Signatures with one type for both sides make the same of both. References
and members of enumerations may be brought to the one type or to the other, as the left operand is
asked first. Then both ways are open, and there are few types between which they are.
-/

namespace TypedExpr

namespace BinaryOp

/-- The comparison that holds of two operands where this one holds of them in the other order. -/
def mirror : BinaryOp → BinaryOp
  | less => greater
  | lessEqual => greaterEqual
  | greater => less
  | greaterEqual => lessEqual
  | op => op

@[simp] theorem mirror_mirror (op : BinaryOp) : op.mirror.mirror = op := by cases op <;> rfl

@[simp] theorem isComparison_mirror (op : BinaryOp) : op.mirror.isComparison = op.isComparison := by
  cases op <;> rfl

@[simp] theorem isEquality_mirror (op : BinaryOp) :
    Operand.isEquality op.mirror = Operand.isEquality op := by
  cases op <;> rfl

@[simp] theorem ofBinary_mirror (op : BinaryOp) :
    OperatorClass.ofBinary op.mirror = OperatorClass.ofBinary op := by
  cases op <;> rfl

end BinaryOp

/-! ## Signatures with one type for both sides -/

/-- The candidate for the arguments in the opposite order. -/
def Candidate.turned (c : Candidate) : Candidate := ⟨c.method, c.args.reverse⟩

namespace Overload

variable {α : Type} {place p : α} {l r l' r' : Operand} {m n : Method} {methods : List Method}
  {cs : List Candidate} {c : Candidate}

/-- The method has two parameters of one type. -/
def Paired (m : Method) : Prop := ∃ t, m.params = [⟨t, false⟩, ⟨t, false⟩]

theorem candidate?_turned (paired : Paired m) :
    candidate? [r, l] m = (candidate? [l, r] m).map Candidate.turned := by
  obtain ⟨t, params⟩ := paired
  simp only [candidate?, params, promoteAll?, Bool.false_eq_true, if_false]
  cases l.promote? t false <;> cases r.promote? t false <;> rfl

theorem isBetter_turned (hm : Paired m) (hn : Paired n) :
    isBetter [r, l] m n = isBetter [l, r] m n := by
  obtain ⟨t, first⟩ := hm
  obtain ⟨u, second⟩ := hn
  simp only [isBetter, first, second, noWorse, somewhereBetter, Bool.and_true, Bool.or_false]
  rw [Bool.and_comm (r.ty.compareTargets t u != .lt), Bool.or_comm (r.ty.compareTargets t u == .gt)]

theorem applicable_turned (paired : ∀ m ∈ methods, Paired m) :
    applicable [r, l] methods = (applicable [l, r] methods).map Candidate.turned := by
  rw [applicable, applicable, List.map_filterMap]
  exact List.filterMap_congr fun m hm => candidate?_turned (paired m hm)

theorem Wins.turned (paired : ∀ c ∈ cs, Paired c.method) (h : Wins [l, r] cs c) :
    Wins [r, l] (cs.map Candidate.turned) c.turned := by
  have own := paired c h.mem
  obtain ⟨rest, perm, beats⟩ := h
  refine ⟨rest.map Candidate.turned, perm.map Candidate.turned, ?_⟩
  intro e he
  obtain ⟨d, hd, rfl⟩ := List.mem_map.mp he
  have other := paired d (perm.mem_iff.mpr (List.mem_cons_of_mem c hd))
  exact (isBetter_turned own other).trans (beats d hd)

theorem resolve_turned (paired : ∀ m ∈ methods, Paired m)
    (h : resolve place methods [l, r] = .found p m [l', r']) :
    resolve place methods [r, l] = .found p m [r', l'] := by
  obtain ⟨rfl, wins⟩ := resolve_found_iff.mp h
  refine resolve_found_iff.mpr ⟨rfl, ?_⟩
  rw [applicable_turned paired]
  exact wins.turned fun c hc => paired c.method (mem_applicable.mp hc).1

theorem resolve_turned_notFound (paired : ∀ m ∈ methods, Paired m)
    (h : resolve place methods [l, r] = .notFound) : resolve place methods [r, l] = .notFound := by
  rw [resolve_notFound_iff] at h ⊢
  rw [applicable_turned paired, h]
  rfl

/-- Where all signatures have one type for both sides, the same one is chosen for the operands in
the opposite order, and makes the same of both. -/
theorem resolveLayers_turned {layers : List (List Method)} {place : List Method}
    (paired : ∀ methods ∈ layers, ∀ m ∈ methods, Paired m)
    (h : resolveLayers id [l, r] layers = .found place m [l', r']) :
    resolveLayers id [r, l] layers = .found place m [r', l'] := by
  induction layers with
  | nil => cases h
  | cons methods layers ih =>
      obtain ⟨here, later⟩ := List.forall_mem_cons.mp paired
      rw [resolveLayers] at h ⊢
      cases first : resolve methods (id methods) [l, r] with
      | notFound =>
          rw [first] at h
          have turned : resolve methods (id methods) [r, l] = .notFound :=
            resolve_turned_notFound here first
          rw [turned]
          exact ih later h
      | ambiguous =>
          rw [first] at h
          cases h
      | found p n passed =>
          rw [first] at h
          cases h
          have turned : resolve methods (id methods) [r, l] = .found place m [r', l'] :=
            resolve_turned here first
          rw [turned]

end Overload

theorem OperatorClass.paired {op : BinaryOp} (h : op.isComparison) :
    ∀ methods ∈ (ofBinary op).layers, ∀ m ∈ methods, Overload.Paired m := by
  have uniform (types : List Ty) : ∀ m ∈ OperatorClass.uniform 2 types, Overload.Paired m := by
    intro m hm
    obtain ⟨t, -, rfl⟩ := List.mem_map.mp hm
    exact ⟨t, rfl⟩
  intro methods hmethods
  cases op with
  | equal | notEqual =>
      simp only [ofBinary, layers, List.mem_cons, List.not_mem_nil, or_false] at hmethods
      rcases hmethods with rfl | rfl | rfl <;> exact uniform _
  | less | lessEqual | greater | greaterEqual =>
      simp only [ofBinary, layers, List.mem_cons, List.not_mem_nil, or_false] at hmethods
      rcases hmethods with rfl | rfl <;> exact uniform _
  | _ => cases h

namespace Operand

variable {t u : Token} {op : BinaryOp} {l r l₁ r₁ l₂ r₂ : Operand}

theorem promoteBoth_turned (hop : op.isComparison)
    (h : promoteBoth (.ofBinary op) t l r = .ok (l₁, r₁)) :
    promoteBoth (.ofBinary op) u r l = .ok (r₁, l₁) := by
  unfold promoteBoth at h ⊢
  split at h
  · rename_i found
    cases h
    rw [Overload.resolveLayers_turned (OperatorClass.paired hop) found]
  · cases h

/-- Both operands of a comparison by a signature have one type. -/
theorem promoteBoth_same (hop : op.isComparison)
    (h : promoteBoth (.ofBinary op) t l r = .ok (l₁, r₁)) : l₁.ty = r₁.ty := by
  unfold promoteBoth at h
  split at h
  · rename_i found
    cases h
    obtain ⟨hlayer, hm, passed⟩ := Overload.resolveLayers_found found
    exact same_of_accepts hop (passed.accepted hlayer hm)
  · cases h

/-! ## The two ways to one type -/

/-- An operand that is converted without being asked to. -/
def converted (o : Operand) (t : Ty) : Operand := plain (.convert false o.expr t)

/-- What a comparison makes of `l` and `r`, namely `l₁` and `r₁`, and what it makes of them with the
sides exchanged, namely `r₂` and `l₂`. -/
inductive Facing (op : BinaryOp) (l r : Operand) : (l₁ r₁ r₂ l₂ : Operand) → Prop where
  | turned {l₁ r₁ : Operand} : Facing op l r l₁ r₁ r₁ l₁
  | references (equality : isEquality op) (hl : l.ty.isValueType = false)
      (hr : r.ty.isValueType = false) : Facing op l r l (r.converted l.ty) r (l.converted r.ty)
  | members {r₁ l₂ : Operand} (members : l.ty.isEnum ∨ r.ty.isEnum) (different : l.ty ≠ r.ty)
      (hr : r.promote? l.ty true = some r₁) (hl : l.promote? r.ty true = some l₂) :
      Facing op l r l r₁ r l₂

theorem relateReferences_facing (equality : isEquality op) (hl : l.ty.isValueType = false)
    (hr : r.ty.isValueType = false)
    (h : relateReferences t l r = .ok (l₁, r₁)) :
    ∃ r₂ l₂, relateReferences u r l = .ok (r₂, l₂) ∧ Facing op l r l₁ r₁ r₂ l₂ := by
  unfold relateReferences at h ⊢
  by_cases same : l.ty = r.ty
  · rw [if_pos same] at h
    rw [if_pos same.symm]
    cases h
    exact ⟨r, l, rfl, .turned⟩
  · rw [if_neg same] at h
    rw [if_neg (Ne.symm same)]
    by_cases above : l.ty.isAssignableFrom r.ty
    · rw [if_pos above] at h
      cases h
      by_cases below : r.ty.isAssignableFrom l.ty
      · rw [if_pos below]
        exact ⟨_, _, rfl, .references equality hl hr⟩
      · rw [if_neg below, if_pos above]
        exact ⟨_, _, rfl, .turned⟩
    · rw [if_neg above] at h
      by_cases below : r.ty.isAssignableFrom l.ty
      · rw [if_pos below] at h ⊢
        cases h
        exact ⟨_, _, rfl, .turned⟩
      · rw [if_neg below] at h
        cases h

theorem relateEnums_facing (members : l.ty.isEnum ∨ r.ty.isEnum)
    (h : relateEnums t l r = .ok (l₁, r₁)) :
    ∃ r₂ l₂, relateEnums u r l = .ok (r₂, l₂) ∧ Facing op l r l₁ r₁ r₂ l₂ := by
  unfold relateEnums at h ⊢
  by_cases same : l.ty = r.ty
  · rw [if_pos same] at h
    rw [if_pos same.symm]
    cases h
    exact ⟨r, l, rfl, .turned⟩
  · rw [if_neg same] at h
    rw [if_neg (Ne.symm same)]
    cases right : r.promote? l.ty true with
    | some r' =>
        rw [right] at h
        cases h
        cases left : l.promote? r.ty true with
        | some l' => exact ⟨_, _, rfl, .members members same right left⟩
        | none => exact ⟨_, _, rfl, .turned⟩
    | none =>
        rw [right] at h
        cases left : l.promote? r.ty true with
        | some l' =>
            rw [left] at h
            cases h
            exact ⟨_, _, rfl, .turned⟩
        | none =>
            rw [left] at h
            cases h

/-- What is accepted is accepted with the sides exchanged. -/
theorem relate_facing (hop : op.isComparison) (h : relate t op l r = .ok (l₁, r₁)) :
    ∃ r₂ l₂, relate u op.mirror r l = .ok (r₂, l₂) ∧ Facing op l r l₁ r₁ r₂ l₂ := by
  unfold relate at h ⊢
  rw [BinaryOp.isEquality_mirror, BinaryOp.ofBinary_mirror, Bool.and_right_comm,
    Bool.or_comm r.ty.isEnum]
  split at h
  · rename_i references
    simp only [Bool.and_eq_true, Bool.not_eq_true'] at references
    rw [if_pos (by simp [references])]
    exact relateReferences_facing references.1.1 references.1.2 references.2 h
  · rename_i values
    rw [if_neg values]
    split at h
    · rename_i members
      rw [if_pos members]
      exact relateEnums_facing (by simpa using members) h
    · rename_i plain
      rw [if_neg plain]
      exact ⟨r₁, l₁, promoteBoth_turned hop h, .turned⟩

end Operand

/-! ## Members and their numbers -/

namespace Operand

variable {l r r₁ l₂ o o' : Operand} {target : Ty} {e : EnumType} {k : IntKind}

/-- What cannot be read again is converted. -/
theorem promote?_converted (unread : o.asLiteralOf? target = none) (different : o.ty ≠ target)
    (h : o.promote? target true = some o') :
    o.ty.convertsTo target ∧ o' = o.converted target := by
  simp only [promote?, if_neg different, unread, Bool.or_true, if_true] at h
  split at h
  · rename_i converts
    cases h
    exact ⟨converts, rfl⟩
  · cases h

theorem asLiteralOf?_unmarked (h : o.mark = .none) : o.asLiteralOf? target = none := by
  simp only [asLiteralOf?, h]

/-- What can be read again becomes the constant that it reads as. -/
theorem promote?_read {v : Value} (read : o.asLiteralOf? target = some v)
    (different : o.ty ≠ target) (h : o.promote? target true = some o') :
    o' = plain (.constant v target) := by
  simp only [promote?, if_neg different, read] at h
  exact (Option.some.inj h).symm

/-- Where a member and another operand can each be brought to the type of the other, the other one
is the word `null` or a number of the kind of the member. -/
theorem members_both_ways (hl : l.IsRead) (hr : r.IsRead) (he : l.ty.nonNullable = .enum e)
    (under : e.underlying = .integer k) (short : k ≠ .uint64) (different : l.ty ≠ r.ty)
    (right : r.promote? l.ty true = some r₁) (left : l.promote? r.ty true = some l₂) :
    l₂ = l.converted r.ty ∧
      (r = nullLiteral ∧ r₁ = plain (.constant .null l.ty) ∨
        r.ty.nonNullable = .integer k ∧ (r₁ = r.converted l.ty ∨
          ∃ (w : k.Word) (text : String), r = literal (.integer k w) text ∧
            r₁ = plain (.constant (.enum e (IntKind.int64.wrap w.val)) l.ty))) := by
  have member : l.ty.isEnum := by
    rw [Ty.isEnum, he]
  have unmarked : l.asLiteralOf? r.ty = none := asLiteralOf?_unmarked (hl.mark_of_isEnum member)
  obtain ⟨converts, rfl⟩ := promote?_converted unmarked different left
  refine ⟨rfl, ?_⟩
  have goes := Ty.convertsTo_of_enum he under different converts
  rcases hr.cases_mark with none | rfl | ⟨k', hk, w, text, rfl, read⟩ | type
  · obtain ⟨back, rfl⟩ := promote?_converted (asLiteralOf?_unmarked none) (Ne.symm different) right
    refine .inr ⟨?_, .inl rfl⟩
    rcases goes with object | ⟨own, nullable⟩ | number
    · rw [object, Ty.object_convertsTo_enum he under] at back
      cases back
    · rw [own, nullable] at back
      simp [Ty.convertsTo, Ty.isValueType, Ty.isNullable] at back
    · exact number
  · refine .inl ⟨rfl, ?_⟩
    rcases Ty.eq_of_nonNullable he with type | type
    · have unread : nullLiteral.asLiteralOf? l.ty = none := by
        rw [type]
        rfl
      have back := (promote?_converted unread (Ne.symm different) right).1
      cases back.symm.trans (Ty.object_convertsTo_enum he under)
    · have read : nullLiteral.asLiteralOf? l.ty = some .null := by
        rw [type]
        rfl
      exact promote?_read read (Ne.symm different) right
  · have kind : k' = k := by
      rcases goes with object | ⟨-, nullable⟩ | number
      · cases object
      · cases nullable
      · cases number
        rfl
    subst kind
    have read : (literal (.integer k' w) text).asLiteralOf? l.ty =
        some (.enum e (IntKind.int64.wrap w.val)) := by
      rw [asLiteralOf?_member hk read he under, IntKind.ofInt?_of_holds (w.holds.of_short short)]
      rfl
    exact .inr ⟨rfl, .inr ⟨w, text, rfl, promote?_read read (Ne.symm different) right⟩⟩
  · simp only [List.mem_cons, List.not_mem_nil, or_false] at type
    rcases type with type | type | type | type <;>
      · rw [type] at goes
        rcases goes with goes | ⟨-, goes⟩ | goes <;> cases goes

end Operand

end TypedExpr
