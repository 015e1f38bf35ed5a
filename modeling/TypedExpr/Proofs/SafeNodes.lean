import TypedExpr.Proofs.SafeAggregates
import TypedExpr.Proofs.SafeConversion

/-! # Nodes are safe

A node that the grammar has made is safe as soon as its parts are: what its parts evaluate to
conforms to their types, and these are the types that its own operation relies on. One lemma for
each kind of node, about values of the parts and not about how they are come by.
-/

namespace TypedExpr

open Outcome Value Source

variable {texts : Prop} {v : Value}

/-- The type of what can be gone through. -/
def Ty.isSequence : Ty → Bool
  | .sequence _ => true
  | _ => false

namespace Ty

theorem isSequence_of_named {t : Ty} (h : NamedTy t) : t.isSequence = false := by
  cases h <;> rfl

theorem Plain.above : ∀ {t s : Ty}, s.Plain → t.isAssignableFrom s → t.Plain
  | .predefined p, _, _, _ => .predefined p
  | .sequence e, s, hs, h => by
      by_cases same : Ty.sequence e = s
      · exact same ▸ hs
      · unfold isAssignableFrom at h
        simp only [same, decide_false, Bool.false_or] at h
        split at h
        · rw [of_decide_eq_true h]
          exact .sequence (.predefined _)
        · split at h
          · rename_i e' he
            have element := hs.element he
            simp only [Bool.or_eq_true, decide_eq_true_eq, Bool.and_eq_true] at h
            rcases h with rfl | ⟨-, below⟩
            · exact .sequence element
            · exact .sequence (Plain.above element below)
          · cases h
  | .cls _, s, hs, h => by
      cases hs <;> cases h
  | .nullable _, _, hs, h | .enum _, _, hs, h | .record _, _, hs, h | .array _, _, hs, h
  | .lambda .., _, hs, h => (of_decide_eq_true h) ▸ hs

/-- A value goes to the type of a parameter as it is, unless it is a text that would have to stand
    for its characters. -/
theorem Fits.conforms {s p : Ty} (h : s.Fits p) (hs : s.Plain) (hv : v.Conforms texts s)
    (allowed : texts ∨ p.isSequence = false) : v.Conforms texts p := by
  rcases h with rfl | ⟨reference, converts⟩
  · exact hv
  · by_cases same : s = p
    · exact same ▸ hv
    · have above : p.isAssignableFrom s := by
        simpa [convertsTo, same, reference] using converts
      refine hv.above (hs.above above) above (allowed.imp_right fun single => ?_)
      cases p with
      | sequence => cases single
      | _ => exact ⟨rfl, by simp⟩

end Ty

namespace Expr

/-- The values of arguments, one for each. -/
abbrev ValuesOf (texts : Prop) (values : List Value) (args : List Expr) : Prop :=
  List.Forall₂ (fun v (e : Expr) => Value.Conforms texts v e.ty) values args

/-- Arguments that fit the types of parameters have values that conform to them. -/
theorem ValuesOf.pass {values : List Value} {args : List Expr} {types : List Ty}
    (h : ValuesOf texts values args) (plain : ∀ e ∈ args, e.ty.Plain)
    (fit : List.Forall₂ (fun a t => a.ty.Fits t) args types)
    (allowed : texts ∨ ∀ t ∈ types, t.isSequence = false) :
    List.Forall₂ (Value.Conforms texts) values types := by
  induction h generalizing types with
  | nil =>
      cases fit
      exact .nil
  | cons hv _ ih =>
      cases fit with
      | cons hf hfs =>
          refine .cons ?_ (ih (fun e he => plain e (by simp [he])) hfs ?_)
          · exact hf.conforms (plain _ (by simp)) hv (allowed.imp_right fun single =>
              single _ (by simp))
          · exact allowed.imp_right fun single t ht => single t (by simp [ht])

/-- Types that a text can name take no text for its characters. -/
theorem ValuesOf.passNamed {values : List Value} {args : List Expr} {m : Method}
    (h : ValuesOf texts values args) (plain : ∀ e ∈ args, e.ty.Plain) (fit : Fit args m)
    (named : m.isNamed) :
    List.Forall₂ (fun v (p : Param) => Value.Conforms texts v p.ty) values m.params := by
  have single : ∀ t ∈ m.paramTypes, t.isSequence = false := by
    intro t ht
    obtain ⟨p, hp, rfl⟩ := List.mem_map.mp ht
    simp only [Method.isNamed, Bool.and_eq_true, List.all_eq_true] at named
    exact Ty.isSequence_of_named (.of_isNamed (named.1 p hp))
  have passed : List.Forall₂ (Value.Conforms texts) values m.paramTypes :=
    h.pass plain (List.forall₂_map_right_iff.mpr fit) (.inr single)
  exact List.forall₂_map_right_iff.mp passed

namespace Formed

/-- The value of what a member belongs to; null for the type itself. -/
abbrev IsTarget (texts : Prop) (target : Option Expr) (receiver : Value) : Prop :=
  ∀ e ∈ target, receiver.Conforms texts e.ty

theorem member_safe {target : Option Expr} {owner : Ty} {m : Member} {receiver : Value}
    (h : Formed (.member target owner m)) (plain : ∀ e ∈ target, e.ty.Plain)
    (hr : IsTarget texts target receiver) :
    (m.read receiver).Safe texts fun v => v.Conforms texts m.ty := by
  cases h with
  | member found =>
      have ht := plain _ rfl
      obtain ⟨declared, -⟩ := Catalog.property?_declared ht found
      exact Catalog.declaredMembers_sound ht m declared receiver fun _ => hr _ rfl
  | staticMember named found =>
      have ht := Ty.Plain.named named
      obtain ⟨declared, isStatic⟩ := Catalog.property?_declared ht found
      exact Catalog.declaredMembers_sound ht m declared receiver fun hi => by
        rw [isStatic] at hi
        cases hi

/-- A receiver is one of every type above its own that declares methods. -/
theorem receiver_conforms {t owner : Ty} (ht : t.Plain) (ho : owner ∈ Catalog.selfAndBases t)
    (hv : v.Conforms texts t) : v.Conforms texts owner := by
  rcases Catalog.owner_of_plain ht ho with rfl | rfl
  · exact hv
  · exact .object

theorem predefinedMethod_sound {owner : Ty} {m : Method} (hp : Catalog.isPredefined owner)
    (hm : m ∈ Catalog.declaredMethods owner) : m.Sound texts owner := by
  cases owner with
  | predefined p => exact Catalog.declaredMethods_sound p m hm
  | _ => cases hp

theorem call_safe {host : Host} {target : Option Expr} {owner : Ty} {m : Method} {args : List Expr}
    {receiver : Value} {values : List Value} (h : Formed (.call target owner m args))
    (plain : ∀ e ∈ target, e.ty.Plain) (hplain : ∀ e ∈ args, e.ty.Plain)
    (hr : IsTarget texts target receiver) (hvalues : ValuesOf texts values args) :
    (m.call host receiver values).Safe texts fun v =>
      v.Conforms texts (m.result.getD .object) := by
  cases h with
  | call ho hp hm _ _ hargs =>
      refine predefinedMethod_sound hp hm host receiver values (fun _ => ?_) ?_
      · exact receiver_conforms (plain _ rfl) ho (hr _ rfl)
      · exact hvalues.passNamed hplain hargs (Catalog.methods_named hp hm)
  | staticCall hp hm hi _ hargs =>
      refine predefinedMethod_sound hp hm host receiver values (fun hs => ?_) ?_
      · rw [hi] at hs
        cases hs
      · exact hvalues.passNamed hplain hargs (Catalog.methods_named hp hm)
  | indexer ho hm hargs =>
      have ht := plain _ rfl
      refine Catalog.indexers_sound ht ho hm host receiver values (fun _ => ?_) ?_
      · exact receiver_conforms ht ho (hr _ rfl)
      · obtain ⟨-, hm⟩ := ht.indexer ho hm
        refine hvalues.passNamed hplain hargs ?_
        cases List.mem_singleton.mp hm
        rfl

theorem new_safe {host : Host} {m : Method} {args : List Expr} {values : List Value}
    (h : Formed (.new m args)) (hplain : ∀ e ∈ args, e.ty.Plain)
    (hvalues : ValuesOf texts values args) :
    (m.call host .null values).Safe texts fun v => v.Conforms texts (m.result.getD .object) := by
  cases h with
  | new ht hm hargs =>
      refine Catalog.constructors_sound ht m hm host .null values (fun hi => ?_) ?_
      · rw [Catalog.constructors_static ht hm] at hi
        cases hi
      · exact hvalues.passNamed hplain hargs (Catalog.constructors_named ht hm)

theorem arrayIndex_safe {target index : Expr} {element : Ty} {items i : Value}
    (h : Formed (.arrayIndex target index element)) (hitems : items.Conforms texts target.ty)
    (hi : i.Conforms texts index.ty) :
    (items.itemAt i).Safe texts fun v => v.Conforms texts element := by
  cases h with
  | arrayIndex ht hindex =>
      rw [ht] at hitems
      rw [hindex] at hi
      obtain ⟨w, rfl⟩ := hi.integer
      rcases hitems.items rfl with rfl | ⟨vs, hvs, conform⟩ | ⟨-, s, rfl⟩
      · exact .error .nullReference
      · unfold itemAt
        split
        · exact .error .nullReference
        · rw [hvs]
          show (if w.val < 0 then _ else _ : Outcome Value).Safe texts _
          split
          · exact .error .indexOutOfRange
          · exact Safe.ofOption .indexOutOfRange fun u hu => conform u (List.mem_of_getElem? hu)
      · exact .error (.invalidCast _ _)

theorem unary_safe {op : UnaryOp} {operand : Expr} (h : Formed (.unary op operand))
    (hv : v.Conforms texts operand.ty) :
    (op.apply v).Safe texts fun u => u.Conforms texts operand.ty := by
  cases h with
  | unary accepted => exact UnaryOp.apply_safe accepted hv

/-- And and or ask their right operand only where the left one leaves the matter open. -/
theorem logical_safe {op : BinaryOp} {l r : Expr} {t : Ty} {decisive : Bool} {right : Outcome Value}
    (h : Formed (.binary op l r t)) (hop : OperatorClass.ofBinary op = .logic)
    (hv : v.Conforms texts l.ty) (hright : right.Safe texts fun u => u.Conforms texts r.ty) :
    (v.logical decisive right).Safe texts fun u => u.Conforms texts t := by
  cases h with
  | comparison hc => cases op <;> first | (cases hc; done) | cases hop
  | arithmetic hc accepted =>
      rw [hop] at accepted
      obtain ⟨same, truth⟩ := OperatorClass.logic_operands accepted
      have result : Operand.resultTy op l.ty r.ty = l.ty := by
        cases op <;> first | rfl | cases hop
      rw [result, same]
      exact Value.logical_safe truth (same ▸ hv) hright

/-- Other operators look at the values of both operands. -/
theorem binary_safe {op : BinaryOp} {l r : Expr} {t : Ty} {a b : Value}
    (h : Formed (.binary op l r t)) (hop : OperatorClass.ofBinary op ≠ .logic) (plain : l.ty.Plain)
    (parts : ∀ e, (∃ t, l = .convert false e t) ∨ (∃ t, r = .convert false e t) → e.ty.Plain)
    (order : op.isComparison → Operand.isEquality op ∨ HaveOrder l r)
    (ha : a.Conforms texts l.ty) (hb : b.Conforms texts r.ty)
    (hl : ∀ u s, l = .constant u s → a = u) (hr : ∀ u s, r = .constant u s → b = u) :
    (if op.isComparison then op.comparison a b else op.arithmetic a b).Safe texts
      fun u => u.Conforms texts t := by
  cases h with
  | comparison hc same related =>
      rw [if_pos hc]
      refine BinaryOp.comparison_safe hc ?_
      -- a null answers before an order is asked for, and so does the word `null`
      rcases related.ordered hc same plain parts (order hc) with
        equality | ⟨s, rfl⟩ | ⟨s, rfl⟩ | ordered
      · exact .inl equality
      · rw [hl _ _ rfl]
        exact .inr (.inl rfl)
      · rw [hr _ _ rfl]
        exact .inr (.inr (.inl rfl))
      · right
        rcases ha.null_or_nonNullable with ⟨rfl, -⟩ | ha
        · exact .inl rfl
        rcases hb.null_or_nonNullable with ⟨rfl, -⟩ | hb
        · exact .inr (.inl rfl)
        exact compare?_isSome ordered ha (by rwa [same])
  | arithmetic hc accepted =>
      rw [if_neg (by simp [hc])]
      refine BinaryOp.arithmetic_safe ?_ accepted ha hb
      cases op <;> first | rfl | exact absurd rfl hop | cases hc

theorem convert_safe {checked : Bool} {e : Expr} {t : Ty} (h : Formed (.convert checked e t))
    (plain : t.Plain) (hv : v.Conforms texts e.ty) (quiet : texts ∨ t.nestsText e.ty = false) :
    (v.convert checked t).Safe texts fun u => u.Conforms texts t := by
  cases h with
  | implicit converts => exact convert_implicit_safe plain hv converts quiet
  | explicit named _ => exact convert_named_safe v checked named

/-- A field is refused only where a text stands for its characters. -/
theorem checkFields_safe {properties : List Property} {values : List Value}
    (h : List.Forall₂ (fun v (p : Property) => Value.Conforms texts v p.ty) values properties)
    (plain : ∀ p ∈ properties, p.ty.Plain) :
    Record.checkFields properties values = .ok () ∨
      ∃ e, Record.checkFields properties values = .error e ∧
        (EvalError.record e).Permitted texts := by
  induction h with
  | nil => exact .inl rfl
  | @cons v p vs ps hv _ ih =>
      simp only [Record.checkFields, Record.checkField]
      rcases hv.conformsTo (plain p (by simp)) with shown | ⟨spelled, ⟨s, rfl⟩, hp⟩
      · rw [if_pos shown]
        exact ih fun q hq => plain q (by simp [hq])
      · split
        · exact ih fun q hq => plain q (by simp [hq])
        · refine .inr ⟨_, rfl, ?_⟩
          rw [hp]
          exact .spelled p.name spelled

theorem newRecord_safe {r : RecordType} {fields : List Expr} {values : List Value}
    (h : Formed (.newRecord r fields)) (plain : ∀ p ∈ r.properties, p.ty.Plain)
    (hvalues : ValuesOf texts values fields) :
    (match Record.ofValues r values with
      | .ok made => .ok made.toValue
      | .error e => .error (.record e) : Outcome Value).Safe texts
      fun v => v.Conforms texts (.record r) := by
  cases h with
  | newRecord types =>
      have conform :
          List.Forall₂ (fun v (p : Property) => Value.Conforms texts v p.ty) values
            r.properties := by
        have passed : List.Forall₂ (Value.Conforms texts) values (r.properties.map (·.ty)) := by
          rw [types]
          exact List.forall₂_map_right_iff.mpr hvalues
        exact List.forall₂_map_right_iff.mp passed
      obtain ⟨length, each⟩ := List.forall₂_iff_get.mp conform
      have made : Value.Conforms texts (.record r values) (.record r) := by
        refine .record length fun i v p hv hp => ?_
        obtain ⟨hi, rfl⟩ := List.getElem?_eq_some_iff.mp hv
        obtain ⟨hj, rfl⟩ := List.getElem?_eq_some_iff.mp hp
        exact each i hi hj
      unfold Record.ofValues
      rw [if_neg (by simp [length])]
      rcases checkFields_safe conform plain with checked | ⟨e, refused, permitted⟩
      · rw [checked]
        exact .ok made
      · rw [refused]
        exact .error permitted

theorem elementType?_of_item {t e : Ty} (h : Operand.itemTy? t = some e) :
    t.elementType? = some e := by
  unfold Operand.itemTy? at h
  split at h
  · cases h
  · exact h

theorem bare_safe {source : Expr} {op : AggregateOp} {t : Ty}
    (h : Formed (.aggregate source op none t)) (hv : v.Conforms texts source.ty) :
    (v.itemsOf >>= fun items => op.run none items t).Safe texts fun u => u.Conforms texts t := by
  cases h with
  | bare hi hop =>
      exact Safe.bind (itemsOf_safe hv (elementType?_of_item hi)) fun items _ =>
        AggregateOp.run_bare_safe hop items

/-- The selector is a function of one item. -/
theorem aggregate_safe {source : Expr} {op : AggregateOp} {l : Lambda} {t : Ty}
    {select : Value → Outcome Value} (h : Formed (.aggregate source op (some l) t))
    (hv : v.Conforms texts source.ty)
    (hselect : ∀ item, List.Forall₂ (fun v (p : Parameter) => Value.Conforms texts v p.ty) [item]
      l.params → (select item).Safe texts fun u => u.Conforms texts l.resultTy) :
    (v.itemsOf >>= fun items => op.run (some ⟨select, l.resultTy⟩) items t).Safe texts
      fun u => u.Conforms texts t := by
  cases h with
  | aggregate hi hop hbody =>
      refine Safe.bind (itemsOf_safe hv (elementType?_of_item hi)) fun items hitems => ?_
      rename_i item body _
      have safe : (⟨select, body.ty⟩ : AggregateOp.Selection).SafeOn texts items :=
        fun v hv => hselect v (.cons (hitems v hv) .nil)
      exact AggregateOp.run_safe hop hbody hitems safe

end Formed
end Expr
end TypedExpr
