import TypedExpr.Operand.Operator
import TypedExpr.Proofs.ExactMatch
import TypedExpr.Proofs.Spelling
import Mathlib.Data.List.Nodup

/-! # Operands that need no promotion

Of overloads with the same type for all parameters, the one that has the type of all arguments is
better than each other and takes the arguments as they are. So operators between numbers of 32 bits
or truth values make a node of just their operands, whatever else the operands could become.
-/

namespace TypedExpr

namespace Overload

variable {α : Type} {place : α} {args : List Operand} {m : Method}

theorem resolve_notFound {methods : List Method} (h : ∀ m ∈ methods, candidate? args m = none) :
    resolve place methods args = .notFound :=
  resolve_notFound_iff.mpr (List.filterMap_eq_nil_iff.mpr h)

/-! ## Signatures of one type -/

section Uniform

variable {t u : Ty} (hargs : ∀ a ∈ args, a.ty = t)
include hargs

/-- A signature with one type throughout is an exact match for arguments of this type only. -/
theorem exact_uniform (nonempty : args ≠ []) :
    Exact args (Method.signature "F" (List.replicate args.length u)) ↔ t = u := by
  have own : (args.map fun a => (⟨a.ty, false⟩ : Param)) =
      List.replicate args.length ⟨t, false⟩ := by
    rw [List.map_congr_left fun a ha => by rw [hargs a ha], List.map_const']
  have length : args.length ≠ 0 := by simpa using nonempty
  rw [Exact, own, Method.signature, List.map_replicate, List.replicate_inj]
  simp [length, eq_comm]

/-- Of signatures for different types, each with one type throughout, that of the type of all
arguments is chosen. -/
theorem resolve_uniform {types : List Ty} (distinct : types.Nodup) (ht : t ∈ types)
    (nonempty : args ≠ []) :
    resolve place (OperatorClass.uniform args.length types) args =
      .found place (Method.signature "F" (List.replicate args.length t)) args := by
  obtain ⟨before, after, rfl⟩ := List.append_of_mem ht
  rw [OperatorClass.uniform, List.map_append, List.map_cons]
  refine ((exact_uniform hargs nonempty).mpr rfl).resolve fun n hn => ?_
  rw [← List.map_append] at hn
  obtain ⟨u, hu, rfl⟩ := List.mem_map.mp hn
  rw [exact_uniform hargs nonempty]
  rintro rfl
  rw [List.nodup_middle] at distinct
  exact (List.nodup_cons.mp distinct).1 hu

end Uniform

end Overload

/-! ## Layers of signatures -/

namespace Operand

/-- An operand of a type, and not the word `null`, which goes to more types. -/
structure IsOf (o : Operand) (t : Ty) : Prop where
  ty : o.ty = t
  notNull : o.mark ≠ .null

/-- No value of type `s` goes to `t`, and no literal of type `s` can be read as one. -/
def Apart (s t : Ty) : Prop :=
  s.convertsTo t = false ∧ ∀ text, reread? text s t.nonNullable = none

variable {o : Operand} {s t : Ty}

theorem IsOf.promote? (ho : o.IsOf s) (apart : Apart s t) : o.promote? t false = none := by
  obtain ⟨rfl, notNull⟩ := ho
  obtain ⟨stays, unread⟩ := apart
  have different : o.ty ≠ t := by
    intro same
    simp [Ty.convertsTo, same] at stays
  have notLiteral : o.asLiteralOf? t = none := by
    unfold asLiteralOf?
    split
    · rfl
    · exact unread _
    · contradiction
  simp [Operand.promote?, different, notLiteral, stays]

end Operand

namespace OperatorClass

/-- The first parameter of the method is for other values than those of `t`. -/
def Excludes (t : Ty) (m : Method) : Prop :=
  ∃ p ∈ m.params.head?, Operand.Apart t p.ty

/-- Among the signatures of the class there is one for operands that are all of type `t`, and no
signature in an earlier layer is for them. -/
def Offers (c : OperatorClass) (arity : Nat) (t : Ty) : Prop :=
  ∃ before types after, c.layers = before ++ uniform arity types :: after ∧ types.Nodup ∧
    t ∈ types ∧ ∀ methods ∈ before, ∀ m ∈ methods, Excludes t m

variable {c : OperatorClass} {args : List Operand} {t : Ty} {m : Method}

theorem Excludes.candidate? (h : Excludes t m) (hargs : ∀ a ∈ args, a.IsOf t)
    (nonempty : args ≠ []) : Overload.candidate? args m = none := by
  obtain ⟨a, as, rfl⟩ := List.exists_cons_of_ne_nil nonempty
  obtain ⟨p, hp, apart⟩ := h
  obtain ⟨ps, hm⟩ := List.head?_eq_some_iff.mp hp
  have stays := (hargs a (by simp)).promote? apart
  simp [Overload.candidate?, hm, Overload.promoteAll?, stays]

theorem Offers.resolveLayers (h : c.Offers args.length t) (hargs : ∀ a ∈ args, a.IsOf t)
    (nonempty : args ≠ []) :
    ∃ layer m, Overload.resolveLayers id args c.layers = .found layer m args := by
  obtain ⟨before, types, after, layers, distinct, ht, excluded⟩ := h
  rw [layers]
  clear layers
  induction before with
  | nil =>
      let layer := uniform args.length types
      let m := Method.signature "F" (List.replicate args.length t)
      have chosen : Overload.resolve layer (id layer) args = .found layer m args :=
        Overload.resolve_uniform (fun a ha => (hargs a ha).ty) distinct ht nonempty
      refine ⟨layer, m, ?_⟩
      rw [List.nil_append, Overload.resolveLayers, chosen]
  | cons methods before ih =>
      obtain ⟨here, later⟩ := List.forall_mem_cons.mp excluded
      obtain ⟨layer, m, found⟩ := ih later
      have none : Overload.resolve methods (id methods) args = .notFound :=
        Overload.resolve_notFound fun m hm => (here m hm).candidate? hargs nonempty
      refine ⟨layer, m, ?_⟩
      rw [List.cons_append, Overload.resolveLayers, none]
      exact found

/-- What has signatures besides numbers. -/
def otherTypes : List Ty := .string :: withNull [.char, .dateTime, .timeSpan, .boolean, .guid]

/-- None of them is what a number goes to. -/
theorem apart_int32 (h : t ∈ otherTypes) : Operand.Apart .int32 t := by
  simp only [otherTypes, withNull, List.flatMap_cons, List.flatMap_nil, List.cons_append,
    List.nil_append, List.append_nil, List.mem_cons, List.not_mem_nil, or_false] at h
  rcases h with rfl | rfl | rfl | rfl | rfl | rfl | rfl | rfl | rfl | rfl | rfl
  all_goals exact ⟨by decide, fun _ => rfl⟩

private theorem excludes_int32 {methods : List Method}
    (h : methods ∈ [subtractionSignatures, additionSignatures, equalitySignatures,
      relationSignatures]) : ∀ m ∈ methods, Excludes .int32 m := by
  have all : [subtractionSignatures, additionSignatures, equalitySignatures,
      relationSignatures].all fun methods => methods.all fun m => m.params.head?.any fun p =>
        decide (p.ty ∈ otherTypes) := by
    decide
  intro m hm
  have one := List.all_eq_true.mp (List.all_eq_true.mp all methods h) m hm
  rw [Option.any_eq_true] at one
  obtain ⟨p, hp, mem⟩ := one
  exact ⟨p, hp, apart_int32 (by simpa using mem)⟩

/-- The numbers that operators between two of them take. -/
theorem offers_int32 (h : c ∈ [arithmetic, addition, subtraction, equality, relation]) :
    c.Offers 2 .int32 := by
  let types := withNull [.int32, .uint32, .int64, .uint64, .single, .double, .decimal]
  have among : types.Nodup ∧ Ty.int32 ∈ types := by decide
  have offers : ∀ before, c.layers = before ++ [uniform 2 types] →
      (∀ methods ∈ before, methods ∈ [subtractionSignatures, additionSignatures,
        equalitySignatures, relationSignatures]) → c.Offers 2 .int32 := by
    intro before layers earlier
    refine ⟨before, types, [], layers, among.1, among.2, ?_⟩
    exact fun methods h => excludes_int32 (earlier methods h)
  simp only [List.mem_cons, List.not_mem_nil, or_false] at h
  rcases h with rfl | rfl | rfl | rfl | rfl
  · exact offers [] rfl (by simp)
  · exact offers [_] rfl (by simp)
  · exact offers [_, _] rfl (by simp)
  · exact offers [_, _] rfl (by simp)
  · exact offers [_] rfl (by simp)

theorem offers_boolean (h : c = equality ∨ c = logic) : c.Offers 2 .boolean := by
  rcases h with rfl | rfl
  · exact ⟨[], _, _, rfl, by decide, by decide, by simp⟩
  · exact ⟨[], _, _, rfl, by decide, by decide, by simp⟩

theorem negation_offers : negation.Offers 1 .int32 :=
  ⟨[], _, _, rfl, by decide, by decide, by simp⟩

theorem complement_offers : complement.Offers 1 .boolean :=
  ⟨[], _, _, rfl, by decide, by decide, by simp⟩

end OperatorClass

namespace BinaryOp

theorem Takes.offers {op : BinaryOp} {s t : Ty} (h : op.Takes s t) :
    (OperatorClass.ofBinary op).Offers 2 s := by
  cases h with
  | arithmetic h =>
      refine OperatorClass.offers_int32 ?_
      cases op <;> first | decide | cases h
  | comparison h =>
      refine OperatorClass.offers_int32 ?_
      cases op <;> first | decide | cases h
  | equality h =>
      refine OperatorClass.offers_boolean (.inl ?_)
      rcases h with rfl | rfl <;> rfl
  | logic h =>
      refine OperatorClass.offers_boolean (.inr ?_)
      rcases h with rfl | rfl <;> rfl

end BinaryOp

namespace Operand

variable {token : Token} {l r o : Operand} {s t : Ty}

theorem promoteBoth_exact {c : OperatorClass} (h : c.Offers 2 s) (hl : l.IsOf s) (hr : r.IsOf s) :
    promoteBoth c token l r = .ok (l, r) := by
  have both : ∀ a ∈ [l, r], a.IsOf s := by simp [hl, hr]
  obtain ⟨layer, m, found⟩ := OperatorClass.Offers.resolveLayers h both (by simp)
  rw [promoteBoth, found]

/-- A comparison of values brings them to one type by a signature. -/
theorem relate_exact {op : BinaryOp} (h : op.Takes s t) (hl : l.IsOf s) (hr : r.IsOf s) :
    relate token op l r = .ok (l, r) := by
  have value : s.isValueType ∧ s.isEnum = false := by cases h <;> decide
  rw [relate, hl.ty, hr.ty, value.1, value.2]
  simpa using promoteBoth_exact h.offers hl hr

private theorem resultTy_exact {op : BinaryOp} (h : op.Takes s t)
    (joins : op.isComparison = false) : resultTy op s s = t := by
  cases h with
  | arithmetic h => simp [resultTy, Ty.nonNullable]
  | comparison h => simp [joins] at h
  | equality h => rcases h with rfl | rfl <;> cases joins
  | logic h => simp [resultTy, Ty.nonNullable]

private theorem takes_comparison {op : BinaryOp} (h : op.Takes s t) (joins : op.isComparison) :
    t = .boolean := by
  cases h with
  | arithmetic h => cases op <;> first | exact absurd h (by decide) | exact absurd joins (by decide)
  | _ => rfl

/-- An operator between operands of the type that it takes does nothing but join them. -/
theorem binary_exact {op : BinaryOp} (hop : token.binaryOp? = some op)
    (single : token.kind ≠ .ampersand) (h : op.Takes s t) (hl : l.IsOf s) (hr : r.IsOf s) :
    binary token l r = .ok (plain (.binary op l.expr r.expr t)) := by
  have noText : s ≠ .string := by cases h <;> decide
  have joined :
      ¬ (token.kind = .ampersand ∨ token.kind = .plus ∧ (l.ty = .string ∨ r.ty = .string)) := by
    simp [single, hl.ty, hr.ty, noText]
  rw [binary, if_neg joined, hop]
  cases comparison : op.isComparison with
  | true =>
      obtain rfl := takes_comparison h comparison
      simp [comparison, compared, relate_exact h hl hr, hl.ty, noText, bind, Except.bind, pure,
        Except.pure]
  | false =>
      simp [comparison, promoteBoth_exact h.offers hl hr, hl.ty, hr.ty,
        resultTy_exact h comparison, bind, Except.bind, pure, Except.pure]

theorem unary_exact {op : UnaryOp} (h : (unaryClass op).Offers 1 s) (ho : o.IsOf s) :
    unary token op o = .ok (plain (.unary op o.expr)) := by
  have alone : ∀ a ∈ [o], a.IsOf s := by simpa using ho
  obtain ⟨layer, m, found⟩ := OperatorClass.Offers.resolveLayers h alone (by simp)
  rw [unary, found]

/-- Between branches of one type a choice does nothing but join them. -/
theorem conditional_exact {test : Operand} {pos : Nat} (ht : test.ty = .boolean)
    (same : l.ty = r.ty) :
    conditional test l r pos = .ok (plain (.conditional test.expr l.expr r.expr)) := by
  simp [conditional, ht, same]

end Operand
end TypedExpr
