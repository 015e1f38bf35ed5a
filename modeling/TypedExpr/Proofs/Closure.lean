import TypedExpr.Proofs.FormedOperators
import TypedExpr.Proofs.Names

/-! # Properties of all that is read

A property that the grammar keeps goes through a whole derivation, from what names mean to the
nodes of what is derived. So it is a property of every node of every text that can be read.
-/

namespace TypedExpr

open Source

/-- What an external brings into an expression has the property everywhere. -/
def External.Holds (P : List Parameter → Expr → Prop) : External → Prop
  | .value v => P [] (.constant v v.typeOf)
  | .expr e => e.Everywhere P []
  | .symbols _ => True

namespace Source

variable {T : Ty → Prop} {P : List Parameter → Expr → Prop}

/-- The property holds of what names mean: of externals wherever they stand, of the parameters
    that are visible here. -/
structure Env.Good (P : List Parameter → Expr → Prop) (Γ : List Parameter) (env : Env) : Prop where
  receiver {p} (h : env.receiver = some p) : P Γ (.parameter p) ∧ p.id < env.nextId
  symbol {name x} (h : env.symbol? name = some x) :
    x.Holds P ∨ ∃ p, x = .expr (.parameter p) ∧ P Γ (.parameter p) ∧ p.id < env.nextId

/-- Names mean the same within an operation, except that bare members belong to its item. -/
theorem Env.Good.within {Γ} {env : Env} (h : env.Good P Γ) (c : Closed T P) {element : Ty}
    (ht : T element) :
    (env.within element).Good P (env.item element :: Γ) := by
  refine ⟨?_, ?_⟩
  · intro p hp
    cases hp
    exact ⟨c.item ht, Nat.lt_succ_self _⟩
  · intro name x hx
    rcases h.symbol hx with holds | ⟨p, rfl, hp, hid⟩
    · exact .inl holds
    · exact .inr ⟨p, rfl, c.within hp hid, Nat.lt_succ_of_lt hid⟩

/-- What a name brings into an expression has the property under the parameters there. -/
theorem Env.Good.expr {Γ name e} {env : Env} (h : env.Good P Γ) (c : Closed T P)
    (he : env.symbol? name = some (.expr e)) : e.Everywhere P Γ := by
  rcases h.symbol he with holds | ⟨p, hp, holds, -⟩
  · exact Expr.Everywhere.weaken (Γ := []) (fun _ _ => c.weaken) holds
  · cases hp
    exact holds

/-- A property that the grammar keeps is a property of all nodes of what it derives. -/
theorem Derives.good {Γ o} {env : Env} (c : Closed T P) (h : Derives env o) (henv : env.Good P Γ) :
    o.Good P Γ := by
  induction h generalizing Γ with
  | integer h => exact Operand.ofInteger_good c h
  | real h => exact Operand.ofReal_good c h
  | quoted h => exact Operand.ofQuoted_good c h
  | truth b => exact c.written rfl rfl (c.family.predefined _)
  | null => exact c.written rfl rfl (c.family.predefined _)
  | receiver h => exact (henv.receiver h).1
  | value h =>
      rcases henv.symbol h with holds | ⟨p, hp, -⟩
      · exact c.weaken (Γ := []) holds
      · cases hp
  | symbol h => exact henv.expr c h
  | invoke h _ ho ihargs =>
      have function := henv.expr c h
      exact Operand.invoke_good c function.2 (c.ty function.root) (fun a ha => ihargs a ha henv) ho
  | property _ ho ihs => exact Operand.property_good c (ihs henv) ho
  | staticProperty ht ho => exact Operand.staticProperty_good c ht ho
  | method _ _ ho ihs ihargs =>
      exact Operand.method_good c (ihs henv) (fun a ha => ihargs a ha henv) ho
  | staticMethod _ _ ho ihargs =>
      exact Operand.staticMethod_good c (fun a ha => ihargs a ha henv) ho
  | aggregate _ hi _ ho ihs ihargs =>
      -- the arguments are read where bare members belong to the item
      have element := c.family.itemTy ((ihs henv).ty c) hi
      exact Operand.aggregate_good c (ihs henv) hi element
        (fun a ha => ihargs a ha (henv.within c element)) ho
  | index _ _ ho iht ihargs =>
      exact Operand.index_good c (iht henv) (fun a ha => ihargs a ha henv) ho
  | construct ht _ ho ihargs =>
      exact Operand.construct_good c ht (fun a ha => ihargs a ha henv) ho
  | conditional _ _ _ ho ihtest ihtrue ihfalse =>
      exact Operand.conditional_good c (ihtest henv) (ihtrue henv) (ihfalse henv) ho
  | unary _ ho ih => exact Operand.unary_good c (ih henv) ho
  | binary _ _ ho ihl ihr => exact Operand.binary_good c (ihl henv) (ihr henv) ho
  | projection _ hr ih =>
      rename_i fields _
      refine ⟨c.formed (.newRecord ?_) trivial (c.family.record ?_), Expr.inAll_iff.mpr ?_⟩
      · rw [hr]
        simp [Operand.ty]
      · rw [hr]
        intro p hp
        obtain ⟨f, hf, rfl⟩ := List.mem_map.mp hp
        exact (ih f hf henv).ty c
      · intro e he
        obtain ⟨f, hf, rfl⟩ := List.mem_map.mp he
        exact ih f hf henv

/-- What the host has given: an external, or what is in a table of them. -/
inductive Given (values : List External) : External → Prop where
  | value {x} (h : x ∈ values) : Given values x
  | entry {table e} (ht : .symbols table ∈ values) (he : e ∈ table) : Given values e.2

theorem not_given_nil {x : External} : ¬ Given [] x := by
  intro h
  cases h with
  | value h => cases h
  | entry ht _ => cases ht

/-- A property that the grammar keeps is a property of every node of a text that is read, if the
    parameters and what the host has given have it. In a type that is asked for the text has just
    that type. -/
theorem readExpr_good {Γ c resultTy text e cache} (closed : Closed T P)
    (hparams : ∀ p ∈ c.params, P Γ (.parameter p)) (hgiven : ∀ x, Given c.values x → x.Holds P)
    (hresult : ∀ t, resultTy = some t → T t)
    (h : readExpr c resultTy text = (.ok e, cache)) :
    e.Everywhere P Γ ∧ ∀ t, resultTy = some t → e.ty = t := by
  obtain ⟨env, o, henv, ho, finished⟩ := readExpr_derives h
  obtain ⟨means, hreceiver, hbound⟩ := Env.ofHost_ok
    (S := fun x => Given c.values x ∨ ∃ p ∈ c.params, x = .expr (.parameter p))
    (fun p hp => .inr ⟨p, hp, rfl⟩) (fun x hx => .inl (.value hx))
    (fun table ht e he => .inl (.entry ht he)) henv
  -- items are numbered from above all parameters that the host has given
  have below {p : Parameter} (hp : p ∈ c.params) : p.id < env.nextId :=
    Nat.lt_of_lt_of_le (Parameter.id_lt_bound hp) hbound
  have good : env.Good P Γ := by
    refine ⟨?_, ?_⟩
    · intro p hp
      have mem := Env.receiverOf_mem (hreceiver.symm.trans hp)
      exact ⟨hparams p mem, below mem⟩
    · intro name x hx
      rcases means.symbol? hx with given | ⟨p, hp, rfl⟩
      · exact .inl (hgiven x given)
      · exact .inr ⟨p, rfl, hparams p hp, below hp⟩
  cases finished with
  | asIs => exact ⟨ho.good closed good, by simp⟩
  | promoted ht =>
      obtain ⟨promoted, same⟩ := Operand.promote?_exact ht
      refine ⟨promoted.good closed (ho.good closed good) (hresult _ rfl), ?_⟩
      rintro _ ⟨⟩
      exact same

end Source
end TypedExpr
