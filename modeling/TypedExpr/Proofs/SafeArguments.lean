import TypedExpr.Eval.Members
import TypedExpr.Proofs.Conformance
import TypedExpr.Proofs.Outcome

/-! # Contracts of members

A member of a type is safe if it may be given any receiver of that type and any arguments of the
types of its parameters. A member of the type itself has no receiver. Reading an argument as what
its parameter says succeeds, or finds null.
-/

namespace TypedExpr

open Outcome

variable {texts : Prop} {v : Value}

namespace Value

theorem asText_safe (h : v.Conforms texts .string) : v.asText.Safe texts fun _ => True := by
  rcases h.string with rfl | ⟨s, rfl⟩
  · exact .error .nullReference
  · exact .ok trivial

theorem asInt32_safe (h : v.Conforms texts .int32) : v.asInt32.Safe texts fun _ => True := by
  obtain ⟨w, rfl⟩ := h.integer
  exact .ok trivial

theorem asFloat_safe (v : Value) : v.asFloat.Safe texts fun _ => True := by
  unfold asFloat
  split
  · exact .error .noValue
  · exact Safe.ofOption (.invalidCast _ _) fun _ _ => trivial

theorem asChar_safe (h : v.Conforms texts .char) : v.asChar.Safe texts fun _ => True := by
  obtain ⟨c, rfl⟩ := h.char
  exact .ok trivial

theorem asDateTime_safe (h : v.Conforms texts .dateTime) :
    v.asDateTime.Safe texts fun _ => True := by
  obtain ⟨t, rfl⟩ := h.dateTime
  exact .ok trivial

theorem asTimeSpan_safe (h : v.Conforms texts .timeSpan) :
    v.asTimeSpan.Safe texts fun _ => True := by
  obtain ⟨s, rfl⟩ := h.timeSpan
  exact .ok trivial

/-- An integer that may be left out. -/
theorem some_asInt32_safe (h : v.Conforms texts .int32) :
    ((some v).mapM asInt32).Safe texts fun _ => True :=
  Safe.bind (asInt32_safe h) fun _ _ => .ok trivial

theorem mapM_asInt32_safe {args : List Value} (h : ∀ v ∈ args, v.Conforms texts .int32) :
    (args.mapM asInt32).Safe texts fun numbers => numbers.length = args.length := by
  induction args with
  | nil => exact .ok rfl
  | cons v vs ih =>
      rw [List.mapM_cons]
      refine Safe.bind (asInt32_safe (h v (by simp))) fun n _ => ?_
      refine Safe.bind (ih fun u hu => h u (by simp [hu])) fun ns hns => ?_
      exact .ok (by simp [hns])

/-- A text that can be read is read as a value of the type that is asked for. -/
theorem ofText?_conforms {text : String} {t : Ty} (h : ofText? text t = some v) :
    v.Conforms texts t := by
  simp only [ofText?] at h
  split at h
  · simp only [ofBooleanName?] at h
    split at h
    · cases h
      exact .scalar rfl rfl rfl
    · split at h
      · cases h
        exact .scalar rfl rfl rfl
      · cases h
  · split at h
    · cases h
      exact .scalar rfl rfl rfl
    · cases h
  · obtain ⟨x, -, rfl⟩ := Option.map_eq_some_iff.mp h
    exact .scalar rfl rfl rfl
  · obtain ⟨x, -, rfl⟩ := Option.map_eq_some_iff.mp h
    exact .scalar rfl rfl rfl
  · obtain ⟨x, -, rfl⟩ := Option.map_eq_some_iff.mp h
    exact .scalar rfl rfl rfl
  · obtain ⟨hw, hv⟩ := numberOfType?_some h
    exact .of_scalar (isScalar_of_isWritten hw) hv

theorem read_safe (text : String) (t : Ty) :
    (read text t).Safe texts fun u => u.Conforms texts t :=
  Safe.ofOption (.invalidFormat text) fun _ h => ofText?_conforms h

end Value

/-- `P` holds of all arguments of the given types. -/
def ForArguments (texts : Prop) : List Ty → (List Value → Prop) → Prop
  | [], P => P []
  | t :: ts, P => ∀ v : Value, v.Conforms texts t → ForArguments texts ts fun vs => P (v :: vs)

theorem ForArguments.apply {types : List Ty} {P : List Value → Prop} {args : List Value}
    (h : ForArguments texts types P)
    (hargs : List.Forall₂ (fun v t => Value.Conforms texts v t) args types) : P args := by
  induction hargs generalizing P with
  | nil => exact h
  | cons hv _ ih => exact ih (h _ hv)

/-- What holds of all lists of values of one type holds of so many arguments of that type. -/
theorem ForArguments.replicate {t : Ty} {P : List Value → Prop} : ∀ {n : Nat},
    (∀ args : List Value, args.length = n → (∀ v ∈ args, v.Conforms texts t) → P args) →
    ForArguments texts (List.replicate n t) P
  | 0, h => h [] rfl (by simp)
  | n + 1, h => fun v hv => ForArguments.replicate fun args length hargs =>
      h (v :: args) (by simp [length]) (by simpa using ⟨hv, hargs⟩)

/-- A call for all receivers and arguments of the right types has a value of the result type, or
    ends with a permitted error. -/
def Method.Sound (texts : Prop) (owner : Ty) (m : Method) : Prop :=
  ∀ (host : Host) (receiver : Value) (args : List Value),
    (m.isStatic = false → receiver.Conforms texts owner) →
    List.Forall₂ (fun v (p : Param) => Value.Conforms texts v p.ty) args m.params →
    (m.call host receiver args).Safe texts fun v => v.Conforms texts (m.result.getD .object)

/-- The same for reading a property or field. -/
def Member.Sound (texts : Prop) (owner : Ty) (m : Member) : Prop :=
  ∀ receiver : Value, (m.isStatic = false → receiver.Conforms texts owner) →
    (m.read receiver).Safe texts fun v => v.Conforms texts m.ty

namespace Catalog

variable {owner result : Ty} {name : String} {params : List Ty} {b : Builtin}

theorem onInstance_sound (h : ∀ receiver : Value, receiver.Conforms texts owner →
    ForArguments texts params fun args =>
      (b.call result receiver args).Safe texts fun v => v.Conforms texts result) :
    (onInstance name params result b).Sound texts owner := by
  intro host receiver args hreceiver hargs
  have fit : List.Forall₂ (Value.Conforms texts) args params := by
    simpa [onInstance, Method.ofBuiltin, List.forall₂_map_right_iff] using hargs
  exact (h receiver (hreceiver rfl)).apply fit

theorem onType_sound (h : ∀ receiver : Value, ForArguments texts params fun args =>
    (b.call result receiver args).Safe texts fun v => v.Conforms texts result) :
    (onType name params result b).Sound texts owner := by
  intro host receiver args _ hargs
  have fit : List.Forall₂ (Value.Conforms texts) args params := by
    simpa [onType, Method.ofBuiltin, List.forall₂_map_right_iff] using hargs
  exact (h receiver).apply fit

theorem overloads_sound {arity : Nat} {types : List Ty} (h : ∀ t ∈ types, ∀ receiver : Value,
    ForArguments texts (List.replicate arity t) fun args =>
      (b.call t receiver args).Safe texts fun v => v.Conforms texts t) :
    ∀ m ∈ overloads name arity types b, m.Sound texts owner := by
  intro m hm
  obtain ⟨t, ht, rfl⟩ := List.mem_map.mp hm
  exact onType_sound (h t ht)

/-- Any type can read its values from a text. -/
theorem parse_sound : (onType "Parse" [.string] result .parse).Sound texts owner :=
  onType_sound fun _ _ ha => Safe.bind (Value.asText_safe ha) fun s _ => Value.read_safe s result

end Catalog
end TypedExpr
