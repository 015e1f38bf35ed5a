import TypedExpr.Expr

/-! # The height of expressions

Evaluating and printing recurse over the tree of an expression. Its height comes from two sources:
chains, in which each operator, member or index goes on from what stands to the left of it, and
parts that are nested in other places. Chains are as long as the text; nesting is limited.
-/

namespace TypedExpr

namespace Expr

/-- The part that a chain goes on from: a left operand, the target of a member, of a call or of an
index, the source of an operation on items, what is converted. A static method goes on from its
first argument, as texts that are joined do. -/
def first? : Expr → Option Expr
  | member target _ _ => target
  | call target _ _ args => target.or args.head?
  | arrayIndex target _ _ => some target
  | binary _ left _ _ => some left
  | convert _ operand _ => some operand
  | aggregate source _ _ _ => some source
  | _ => none

/-- The parts in other places. -/
def others : Expr → List Expr
  | call (some _) _ _ args | new _ args | newRecord _ args => args
  | call none _ _ args => args.tail
  | arrayIndex _ index _ => [index]
  | unary _ operand => [operand]
  | binary _ _ right _ => [right]
  | conditional test whenTrue whenFalse => [test, whenTrue, whenFalse]
  | lambda l => [l.body]
  | invoke f args _ => f :: args
  | aggregate _ _ selector _ => (selector.map (·.body)).toList
  | _ => []

def parts (e : Expr) : List Expr := e.first?.toList ++ e.others

private theorem sizeOf_first {e f : Expr} (h : e.first? = some f) : sizeOf f < sizeOf e := by
  cases e with
  | member target owner m =>
      cases h
      simp only [member.sizeOf_spec, Option.some.sizeOf_spec]
      omega
  | call target owner m args =>
      cases target with
      | some target =>
          cases h
          simp only [call.sizeOf_spec, Option.some.sizeOf_spec]
          omega
      | none =>
          have smaller := List.sizeOf_lt_of_mem (List.mem_of_mem_head? h)
          simp only [call.sizeOf_spec]
          omega
  | arrayIndex | binary | convert | aggregate =>
      cases h
      simp
      omega
  | _ => cases h

private theorem sizeOf_other {e p : Expr} (h : p ∈ e.others) : sizeOf p < sizeOf e := by
  cases e with
  | call target owner m args =>
      have mem : p ∈ args := by
        cases target with
        | some => exact h
        | none => exact List.mem_of_mem_tail h
      have smaller := List.sizeOf_lt_of_mem mem
      simp only [call.sizeOf_spec]
      omega
  | new | newRecord | invoke =>
      have smaller := List.sizeOf_lt_of_mem h
      simp [others] at smaller ⊢
      omega
  | lambda l =>
      obtain rfl := List.mem_singleton.mp h
      cases l
      simp
      omega
  | aggregate source op selector t =>
      obtain ⟨l, rfl, rfl⟩ : ∃ l, selector = some l ∧ l.body = p := by simpa [others] using h
      cases l
      simp
      omega
  | conditional =>
      simp only [others, List.mem_cons, List.not_mem_nil, or_false] at h
      rcases h with rfl | rfl | rfl <;> simp <;> omega
  | arrayIndex | unary | binary =>
      obtain rfl := List.mem_singleton.mp h
      simp only [arrayIndex.sizeOf_spec, unary.sizeOf_spec, binary.sizeOf_spec]
      omega
  | _ => cases h

theorem sizeOf_part {e p : Expr} (h : p ∈ e.parts) : sizeOf p < sizeOf e := by
  rcases List.mem_append.mp h with h | h
  · exact sizeOf_first (by simpa using h)
  · exact sizeOf_other h

/-- The number of nodes on the longest path. -/
def height (e : Expr) : Nat := (e.parts.attach.map fun p => p.1.height).foldr max 0 + 1
termination_by e
decreasing_by exact sizeOf_part p.2

/-- The height where steps to the part that a chain goes on from are not counted. -/
def nesting (e : Expr) : Nat :=
  max ((e.first?.toList.attach.map fun p => p.1.nesting).foldr max 0)
    ((e.others.attach.map fun p => p.1.nesting).foldr max 0 + 1)
termination_by e
decreasing_by
  · exact sizeOf_part (List.mem_append_left _ p.2)
  · exact sizeOf_part (List.mem_append_right _ p.2)

/-- The number of nodes of the chain that ends here. -/
def spine (e : Expr) : Nat := (e.first?.toList.attach.map fun p => p.1.spine).foldr max 0 + 1
termination_by e
decreasing_by exact sizeOf_part (List.mem_append_left _ p.2)

/-- The number of nodes of the longest chain. -/
def chain (e : Expr) : Nat := max e.spine ((e.parts.attach.map fun p => p.1.chain).foldr max 0)
termination_by e
decreasing_by exact sizeOf_part p.2

private theorem foldr_max_le {ns : List Nat} {k : Nat} : ns.foldr max 0 ≤ k ↔ ∀ n ∈ ns, n ≤ k := by
  induction ns with
  | nil => simp
  | cons n ns ih => simp only [List.foldr_cons, Nat.max_le, ih, List.forall_mem_cons]

variable {e : Expr} {k : Nat}

theorem height_le : e.height ≤ k + 1 ↔ ∀ p ∈ e.parts, p.height ≤ k := by
  rw [height]
  simp only [List.attach_map_val, Nat.add_le_add_iff_right, foldr_max_le, List.forall_mem_map]

theorem nesting_le : e.nesting ≤ k + 1 ↔
    (∀ f ∈ e.first?, f.nesting ≤ k + 1) ∧ ∀ p ∈ e.others, p.nesting ≤ k := by
  rw [nesting]
  simp only [List.attach_map_val, Nat.max_le, Nat.add_le_add_iff_right, foldr_max_le,
    List.forall_mem_map, Option.mem_toList, Option.mem_def]

theorem chain_le : e.chain ≤ k ↔ e.spine ≤ k ∧ ∀ p ∈ e.parts, p.chain ≤ k := by
  rw [chain]
  simp only [List.attach_map_val, Nat.max_le, foldr_max_le, List.forall_mem_map]

theorem spine_first {f : Expr} (h : e.first? = some f) : e.spine = f.spine + 1 := by
  rw [spine]
  simp [h]

theorem spine_pos : 0 < e.spine := by
  rw [spine]
  omega

theorem nesting_pos : 0 < e.nesting := by
  rw [nesting]
  omega

/-- The levels of a tree below its root. -/
private theorem nesting_eq (e : Expr) : e.nesting = e.nesting - 1 + 1 := by
  have := e.nesting_pos
  omega

/-- Where no chain is longer than `k`, each level below the root adds `k` nodes at most to those of
the chain that ends at the root. -/
private theorem height_le_spine {e : Expr} (h : e.chain ≤ k) :
    e.height ≤ (e.nesting - 1) * k + e.spine := by
  obtain ⟨-, parts⟩ := chain_le.mp h
  obtain ⟨first, others⟩ := nesting_le.mp (Nat.le_of_eq e.nesting_eq)
  obtain ⟨n, spine⟩ := Nat.exists_eq_add_one.mpr e.spine_pos
  rw [spine, ← Nat.add_assoc, height_le]
  intro p hp
  have shorter := parts p hp
  have smaller := sizeOf_part hp
  have inner := height_le_spine shorter
  rcases List.mem_append.mp hp with hf | ho
  · have link : e.first? = some p := by simpa using hf
    have longer := spine_first link
    have level : p.nesting - 1 ≤ e.nesting - 1 := by
      have := first p link
      omega
    calc p.height ≤ (p.nesting - 1) * k + p.spine := inner
      _ ≤ (e.nesting - 1) * k + p.spine := Nat.add_le_add_right (Nat.mul_le_mul_right k level) _
      _ = (e.nesting - 1) * k + n := by omega
  · calc p.height ≤ (p.nesting - 1) * k + p.spine := inner
      _ ≤ (p.nesting - 1) * k + k := Nat.add_le_add_left (chain_le.mp shorter).1 _
      _ = p.nesting * k := by rw [← Nat.succ_mul, Nat.succ_eq_add_one, ← p.nesting_eq]
      _ ≤ (e.nesting - 1) * k := Nat.mul_le_mul_right k (others p ho)
      _ ≤ (e.nesting - 1) * k + n := Nat.le_add_right _ _
termination_by e

/-- A tree is as high at most as if a longest chain stood on each level. -/
theorem height_le_nesting_mul_chain (e : Expr) : e.height ≤ e.nesting * e.chain := by
  have spine := (chain_le.mp (Nat.le_refl e.chain)).1
  calc e.height ≤ (e.nesting - 1) * e.chain + e.spine := height_le_spine (Nat.le_refl _)
    _ ≤ (e.nesting - 1) * e.chain + e.chain := Nat.add_le_add_left spine _
    _ = e.nesting * e.chain := by rw [← Nat.succ_mul, Nat.succ_eq_add_one, ← e.nesting_eq]

/-! ## Nodes -/

@[simp] theorem nesting_constant (v : Value) (t : Ty) : (constant v t).nesting = 1 := by
  rw [nesting]
  simp [first?, others]

@[simp] theorem nesting_parameter (p : Parameter) : (parameter p).nesting = 1 := by
  rw [nesting]
  simp [first?, others]

@[simp] theorem nesting_convert (checked : Bool) (e : Expr) (t : Ty) :
    (convert checked e t).nesting = e.nesting := by
  have := e.nesting_pos
  rw [nesting]
  simp [first?, others]
  omega

theorem nesting_call {target : Option Expr} {owner : Ty} {m : Method} {args : List Expr}
    (ht : ∀ e ∈ target, e.nesting ≤ k + 1) (hargs : ∀ a ∈ args, a.nesting ≤ k) :
    (call target owner m args).nesting ≤ k + 1 := by
  rw [nesting_le]
  cases target with
  | some target => exact ⟨ht, hargs⟩
  | none =>
      refine ⟨fun f hf => ?_, fun a ha => hargs a (List.mem_of_mem_tail ha)⟩
      exact Nat.le_succ_of_le (hargs f (List.mem_of_mem_head? hf))

theorem nesting_binary {op : BinaryOp} {l r : Expr} {t : Ty} (hl : l.nesting ≤ k + 1)
    (hr : r.nesting ≤ k) : (binary op l r t).nesting ≤ k + 1 := by
  rw [nesting_le]
  simpa [first?, others] using ⟨hl, hr⟩

theorem nesting_conditional {test whenTrue whenFalse : Expr} (htest : test.nesting ≤ k)
    (htrue : whenTrue.nesting ≤ k) (hfalse : whenFalse.nesting ≤ k) :
    (conditional test whenTrue whenFalse).nesting ≤ k + 1 := by
  rw [nesting_le]
  simpa [first?, others] using ⟨htest, htrue, hfalse⟩

/-- Texts are joined and compared by a method of two arguments, in a chain like operators. -/
theorem nesting_joined {m : Method} {l r : Expr} {owner : Ty} (hl : l.nesting ≤ k + 1)
    (hr : r.nesting ≤ k) : (call none owner m [l, r]).nesting ≤ k + 1 := by
  rw [nesting_le]
  simpa [first?, others] using ⟨hl, hr⟩

end Expr
end TypedExpr
