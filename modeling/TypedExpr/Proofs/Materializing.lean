import TypedExpr.Proofs.Keys
import TypedExpr.Proofs.RoundTrip

/-! # What documents are made into

Without a limit for record types, a document is refused only for an object with a key that an
earlier one equals in any case. Every other document becomes a value of the same form: no key, no
element and no level is lost, and the types that are inferred fit the values that are made.
-/

namespace TypedExpr

/-! ## The name that is refused -/

namespace RecordCache

/-- The name stands among the names behind one that it equals in any case. -/
def Repeats (name : String) (names : List String) : Prop :=
  ∃ before after, names = before ++ name :: after ∧
    Text.toLowercase name ∈ before.map Text.toLowercase

private theorem go_eq_some {seen : CaseMap Unit} {shape : List Property} {name : String}
    (h : duplicateName?.go seen shape = some name) :
    ∃ before after, shape.map (·.name) = before ++ name :: after ∧
      Text.toLowercase name ∈ seen.keys ++ before.map Text.toLowercase := by
  induction shape generalizing seen with
  | nil => cases h
  | cons p ps ih =>
      unfold duplicateName?.go at h
      split at h
      · rename_i taken
        cases h
        exact ⟨[], ps.map (·.name), rfl, by simpa using CaseMap.insert?_eq_none_iff.mp taken⟩
      · rename_i seen' inserted
        obtain ⟨-, rfl⟩ := CaseMap.insert?_eq_some inserted
        obtain ⟨before, after, names, earlier⟩ := ih h
        refine ⟨p.name :: before, after, by rw [List.map_cons, names]; rfl, ?_⟩
        simpa using earlier

/-- A name that is refused repeats one before it. -/
theorem duplicateName?_eq_some {shape : List Property} {name : String}
    (h : duplicateName? shape = some name) : Repeats name (shape.map (·.name)) := by
  obtain ⟨before, after, names, earlier⟩ := go_eq_some h
  exact ⟨before, after, names, by simpa [CaseMap.keys, CaseMap.empty] using earlier⟩

theorem Repeats.not_nodup {name : String} {names : List String} (h : Repeats name names) :
    ¬ (names.map Text.toLowercase).Nodup := by
  obtain ⟨before, after, rfl, earlier⟩ := h
  intro distinct
  rw [List.map_append, List.map_cons, List.nodup_append] at distinct
  exact distinct.2.2 _ earlier _ List.mem_cons_self rfl

/-- Without a limit only a repeated name is refused. -/
theorem getOrCreate_unlimited {c : RecordCache} (unlimited : c.limit = none)
    (shape : List Property) :
    (∃ r c', c.getOrCreate shape = .ok (r, c') ∧ c'.limit = none) ∨
      ∃ name, duplicateName? shape = some name ∧
        c.getOrCreate shape = .error (.duplicateProperty name) := by
  unfold getOrCreate
  cases duplicateName? shape with
  | some name => exact .inr ⟨name, rfl, rfl⟩
  | none =>
      have room : c.hasRoom := by simp [hasRoom, unlimited]
      cases c.get? shape with
      | some r => exact .inl ⟨r, c, rfl, unlimited⟩
      | none =>
          simp only [room, if_true]
          exact .inl ⟨_, _, rfl, unlimited⟩

end RecordCache

namespace Json

open RecordCache (Repeats)

/-! ## The form of a document -/

/-- The object stands somewhere in the document, or is the document. -/
inductive HasObject (entries : List (String × Json)) : Json → Prop where
  | here : HasObject entries (object entries)
  | item {items j} (mem : j ∈ items) (h : HasObject entries j) : HasObject entries (array items)
  | member {es e} (mem : e ∈ es) (h : HasObject entries e.2) : HasObject entries (object es)

def keysOf (entries : List (String × Json)) : List String := entries.map (·.1)

/-- No two keys are equal in any case. -/
def CaseDistinct (entries : List (String × Json)) : Prop :=
  ((keysOf entries).map Text.toLowercase).Nodup

instance (entries : List (String × Json)) : Decidable (CaseDistinct entries) :=
  inferInstanceAs (Decidable (List.Nodup _))

mutual

/-- The type and the value have the form of the document. A leaf is what it is taken for, and the
type of a record is the one that the cache has for its keys and the types of their members. -/
inductive Mirrors (infer : Bool) (c : RecordCache) : Json → Ty → Value → Prop where
  | leaf {j t v} (h : j.isLeaf) (judged : j.inferred = (t, v))
      (type : t ∈ [.double, .guid, .string]) : Mirrors infer c j t v
  | array {items vs} (h : List.Forall₂ (MirrorsItem infer c) items vs) :
      Mirrors infer c (array items) (.sequence .object) (.sequence vs)
  | object {entries r} {fields : List (Property × Value)}
      (type : c.get? (fields.map (·.1)) = some r)
      (h : List.Forall₂ (MirrorsEntry infer c) entries fields) :
      Mirrors infer c (object entries) .object (.record r (fields.map (·.2)))

/-- The same for an element of an array. A leaf stays as it is written where it is not judged. -/
inductive MirrorsItem (infer : Bool) (c : RecordCache) : Json → Value → Prop where
  | judged {j t v} (whole : j.isLeaf → infer) (h : Mirrors infer c j t v) : MirrorsItem infer c j v
  | plain {j} (leaf : j.isLeaf) (h : infer = false) : MirrorsItem infer c j j.decoded

/-- The same for a key and its member: a property of that name with its value. -/
inductive MirrorsEntry (infer : Bool) (c : RecordCache) :
    String × Json → Property × Value → Prop where
  | mk {name j t v} (h : Mirrors infer c j t v) : MirrorsEntry infer c (name, j) (⟨name, t⟩, v)

end

/-- Why a document is refused: a key of one of its objects repeats another. -/
inductive Refused (j : Json) : MaterializeError → Prop where
  | mk {entries name} (h : HasObject entries j) (repeats : Repeats name (keysOf entries)) :
      Refused j (.record (.duplicateProperty name))

/-- No object of the document has two keys that are equal in any case. -/
def Distinct (j : Json) : Prop := ∀ entries, HasObject entries j → CaseDistinct entries

variable {infer : Bool} {c : RecordCache} {j : Json}

theorem distinct_of_leaf (h : j.isLeaf) : j.Distinct := by
  intro entries contained
  cases contained <;> cases h

theorem distinct_array {items : List Json} : (array items).Distinct ↔ ∀ j ∈ items, j.Distinct := by
  constructor
  · intro h j mem entries contained
    exact h entries (.item mem contained)
  · intro h entries contained
    cases contained with
    | item mem contained => exact h _ mem entries contained

theorem distinct_object {es : List (String × Json)} :
    (object es).Distinct ↔ CaseDistinct es ∧ ∀ e ∈ es, e.2.Distinct := by
  constructor
  · intro h
    exact ⟨h es .here, fun e mem entries contained => h entries (.member mem contained)⟩
  · rintro ⟨here, inside⟩ entries contained
    cases contained with
    | here => exact here
    | member mem contained => exact inside _ mem entries contained

/-- One of these documents is refused. -/
def RefusedIn (js : List Json) (e : MaterializeError) : Prop := ∃ j ∈ js, Refused j e

theorem RefusedIn.head {js : List Json} {e : MaterializeError} (h : Refused j e) :
    RefusedIn (j :: js) e := ⟨j, List.mem_cons_self, h⟩

theorem RefusedIn.tail {js : List Json} {e : MaterializeError} (h : RefusedIn js e) :
    RefusedIn (j :: js) e := List.exists_mem_cons_of_exists h

theorem Refused.item {items : List Json} {e : MaterializeError} (h : RefusedIn items e) :
    Refused (array items) e := by
  obtain ⟨j, mem, contained, repeats⟩ := h
  exact .mk (.item mem contained) repeats

theorem Refused.member {es : List (String × Json)} {e : MaterializeError}
    (h : RefusedIn (es.map (·.2)) e) : Refused (object es) e := by
  obtain ⟨j, inside, contained, repeats⟩ := h
  obtain ⟨entry, mem, rfl⟩ := List.mem_map.mp inside
  exact .mk (.member mem contained) repeats

theorem Refused.not_distinct {e : MaterializeError} (h : Refused j e) : ¬ j.Distinct := by
  cases h with
  | mk contained repeats => exact fun distinct => repeats.not_nodup (distinct _ contained)

/-! ## The types that are inferred fit -/

theorem inferred_type (j : Json) :
    j.inferred.1 ∈ [Ty.double, .guid, .string] ∧ j.inferred.2.conformsTo j.inferred.1 := by
  unfold inferred
  split
  · exact ⟨by simp, rfl⟩
  · split
    · exact ⟨by simp, rfl⟩
    · split
      · exact ⟨by simp, rfl⟩
      · exact ⟨by simp, rfl⟩

theorem Mirrors.conformsTo {t : Ty} {v : Value} (h : Mirrors infer c j t v) : v.conformsTo t := by
  cases h with
  | leaf _ judged _ =>
      have fits := j.inferred_type.2
      rwa [judged] at fits
  | array => rfl
  | object => rfl

theorem keysOf_mirrored {entries : List (String × Json)} {fields : List (Property × Value)}
    (h : List.Forall₂ (MirrorsEntry infer c) entries fields) :
    (fields.map (·.1)).map (·.name) = keysOf entries := by
  induction h with
  | nil => rfl
  | cons entry _ ih =>
      cases entry
      simp only [List.map_cons, ih, keysOf]

theorem fields_conform {entries : List (String × Json)} {fields : List (Property × Value)}
    (h : List.Forall₂ (MirrorsEntry infer c) entries fields) :
    ∀ f ∈ fields, f.2.conformsTo f.1.ty := by
  induction h with
  | nil => simp
  | cons entry _ ih =>
      cases entry with
      | mk h => exact List.forall_mem_cons.mpr ⟨h.conformsTo, ih⟩

end Json

/-! ## Results and errors -/

namespace Materializer

variable {α β : Type} {G G' : Prop} {P : RecordCache → α → Prop} {Q : RecordCache → β → Prop}
  {E E' : MaterializeError → Prop}

/-- Without a limit there is a result and `G` holds, or there is an error with `E`. The result has
`P` in the cache after it and in every one that extends that. -/
def Settles (m : Materializer α) (G : Prop) (P : RecordCache → α → Prop)
    (E : MaterializeError → Prop) : Prop :=
  ∀ c, c.limit = none →
    (∃ a c', m c = .ok a c' ∧ c'.limit = none ∧ c'.Extends c ∧ G ∧
      ∀ later : RecordCache, later.Extends c' → P later a) ∨
    ∃ e c', m c = .error e c' ∧ E e

namespace Settles

theorem pure {a : α} (hG : G) (h : ∀ c, P c a) : (Pure.pure a : Materializer α).Settles G P E :=
  fun c unlimited => .inl ⟨a, c, rfl, unlimited, .refl c, hG, fun later _ => h later⟩

theorem bind {m : Materializer α} {f : α → Materializer β} (hm : m.Settles G P E)
    (hf : ∀ c a, P c a → (f a).Settles G' (fun later b => P later a → Q later b) E) :
    (m >>= f).Settles (G ∧ G') Q E := by
  intro c unlimited
  simp only [Bind.bind, EStateM.bind]
  rcases hm c unlimited with
    ⟨a, between, first, unlimited, extended, hG, ha⟩ | ⟨e, between, first, he⟩
  · rw [first]
    rcases hf between a (ha between (.refl between)) between unlimited with
      ⟨b, c', second, unlimited, more, hG', hb⟩ | ⟨e, c', second, he⟩
    -- the types that `f a` makes leave those of `a` where they were
    · exact .inl ⟨b, c', second, unlimited, more.trans extended, ⟨hG, hG'⟩,
        fun later last => hb later last (ha later (last.trans more))⟩
    · exact .inr ⟨e, c', second, he⟩
  · rw [first]
    exact .inr ⟨e, between, rfl, he⟩

theorem map {m : Materializer α} (f : α → β) (hm : m.Settles G P E)
    (hf : ∀ c a, P c a → Q c (f a)) : (f <$> m).Settles G Q E := by
  intro c unlimited
  simp only [Functor.map, EStateM.map]
  rcases hm c unlimited with ⟨a, c', first, unlimited, extended, hG, ha⟩ | ⟨e, c', first, he⟩
  · rw [first]
    exact .inl ⟨f a, c', rfl, unlimited, extended, hG,
      fun later last => hf later a (ha later last)⟩
  · rw [first]
    exact .inr ⟨e, c', rfl, he⟩

theorem weaken {m : Materializer α} (hm : m.Settles G P E) (hG : G → G')
    (hE : ∀ e, E e → E' e) : m.Settles G' P E' := by
  intro c unlimited
  rcases hm c unlimited with ⟨a, c', ran, unlimited, extended, g, ha⟩ | ⟨e, c', ran, he⟩
  · exact .inl ⟨a, c', ran, unlimited, extended, hG g, ha⟩
  · exact .inr ⟨e, c', ran, hE e he⟩

theorem followedBy {m : Materializer α} {f : α → Materializer β} (hm : m.Settles G P E)
    (hf : ∀ c a, P c a → (f a).Settles True (fun later b => P later a → Q later b) E) :
    (m >>= f).Settles G Q E :=
  (hm.bind hf).weaken And.left fun _ refused => refused

end Settles

/-- A name of the shape repeats another. -/
def RefusedShape (names : List String) (e : MaterializeError) : Prop :=
  ∃ name, RecordCache.Repeats name names ∧ e = .record (.duplicateProperty name)

theorem recordType_settles (shape : List Property) :
    (recordType shape).Settles ((shape.map (·.name)).map Text.toLowercase).Nodup
      (fun c r => c.get? shape = some r) (RefusedShape (shape.map (·.name))) := by
  intro c unlimited
  rcases RecordCache.getOrCreate_unlimited unlimited shape with
    ⟨r, c', made, unlimited⟩ | ⟨name, duplicate, refused⟩
  · obtain ⟨distinct, found, extended⟩ := RecordCache.getOrCreate_ok made
    have distinct := RecordCache.duplicateName?_eq_none_iff.mp distinct
    rw [RecordCache.shapeKeys, ← Function.comp_def, ← List.map_map] at distinct
    exact .inl ⟨r, c', by simp only [recordType, made], unlimited, extended, distinct,
      fun later last => last.get? found⟩
  · exact .inr ⟨_, c, by simp only [recordType, refused], name,
      RecordCache.duplicateName?_eq_some duplicate, rfl⟩

theorem checkFields_ok {fields : List (Property × Value)}
    (fits : ∀ f ∈ fields, f.2.conformsTo f.1.ty) :
    Record.checkFields (fields.map (·.1)) (fields.map (·.2)) = .ok () := by
  induction fields with
  | nil => rfl
  | cons f fields ih =>
      obtain ⟨first, others⟩ := List.forall_mem_cons.mp fits
      simp only [List.map_cons, Record.checkFields, Record.checkField, if_pos first]
      exact ih others

/-- Values that conform to the properties make a record of the type with just these. -/
theorem record_settles {fields : List (Property × Value)}
    (fits : ∀ f ∈ fields, f.2.conformsTo f.1.ty) :
    (record fields).Settles (((fields.map (·.1)).map (·.name)).map Text.toLowercase).Nodup
      (fun c r => c.get? (fields.map (·.1)) = some r.type ∧ r.fields = fields.map (·.2))
      (RefusedShape ((fields.map (·.1)).map (·.name))) := by
  refine (recordType_settles _).followedBy fun c r found => ?_
  -- the record is made of as many values as its type has properties, and each of them fits
  have properties : r.properties = fields.map (·.1) := by simpa using List.find?_some found
  have made : Record.ofValues r (fields.map (·.2)) = .ok ⟨r, fields.map (·.2)⟩ := by
    simp only [Record.ofValues, properties, List.length_map, ne_eq, not_true_eq_false, if_false,
      checkFields_ok fits]
    rfl
  simp only [made]
  exact .pure trivial fun later found => ⟨found, rfl⟩

end Materializer

namespace Json

open Materializer

variable {infer : Bool} {c : RecordCache}

/-- The members of an object make a record, unless its keys repeat each other. -/
theorem object_settles {entries : List (String × Json)} {fields : List (Property × Value)}
    (h : List.Forall₂ (MirrorsEntry infer c) entries fields) :
    (do return (Ty.object, (← record fields).toValue) : Materializer (Ty × Value)).Settles
      (CaseDistinct entries)
      (fun later made => List.Forall₂ (MirrorsEntry infer later) entries fields →
        Mirrors infer later (object entries) made.1 made.2)
      (Refused (object entries)) := by
  have made := record_settles (fields_conform h)
  rw [keysOf_mirrored h] at made
  refine (made.weaken id ?_).followedBy fun _ r _ => .pure trivial ?_
  · rintro _ ⟨name, repeats, rfl⟩
    exact .mk .here repeats
  · rintro later ⟨type, values⟩ members
    simp only [Record.toValue, values]
    exact .object type members

theorem element_settles {j : Json} (h : (j.typed infer).Settles j.Distinct
    (fun c made => Mirrors infer c j made.1 made.2) (Refused j)) :
    (element infer j).Settles j.Distinct (fun c => MirrorsItem infer c j) (Refused j) := by
  unfold element
  split
  · rename_i plain
    rw [Bool.and_eq_true, Bool.not_eq_true'] at plain
    exact .pure (distinct_of_leaf plain.1) fun _ => .plain plain.1 plain.2
  · rename_i judged
    refine h.map _ fun _ made => .judged fun leaf => ?_
    simpa [leaf] using judged

mutual

/-- A document without keys that repeat others is made into its mirror image, every other one is
refused. -/
theorem typed_settles (j : Json) : (j.typed infer).Settles j.Distinct
    (fun c made => Mirrors infer c j made.1 made.2) (Refused j) := by
  have judged (h : j.isLeaf) : (pure j.inferred : Materializer (Ty × Value)).Settles j.Distinct
      (fun c made => Mirrors infer c j made.1 made.2) (Refused j) :=
    .pure (distinct_of_leaf h) fun _ => .leaf h rfl j.inferred_type.1
  cases j with
  | object entries =>
      simp only [typed]
      refine (((typedEntries_settles entries).weaken id fun _ => .member).bind
        fun c fields h => object_settles h).weaken ?_ fun _ refused => refused
      exact fun both => distinct_object.mpr ⟨both.2, both.1⟩
  | array items =>
      simp only [typed]
      exact ((elements_settles items).weaken distinct_array.mpr fun _ => .item).followedBy
        fun c vs _ => .pure trivial fun later h => .array h
  | null | bool | int | float | string =>
      simp only [typed]
      exact judged rfl
termination_by sizeOf j

theorem elements_settles (js : List Json) :
    (elements infer js).Settles (∀ j ∈ js, j.Distinct)
      (fun c => List.Forall₂ (MirrorsItem infer c) js) (RefusedIn js) := by
  match js with
  | [] => exact .pure (by simp) fun _ => .nil
  | j :: js =>
      have one : (element infer j).Settles j.Distinct (fun c => MirrorsItem infer c j)
          (RefusedIn (j :: js)) := (element_settles (typed_settles j)).weaken id fun _ => .head
      have others : (elements infer js).Settles (∀ j ∈ js, j.Distinct)
          (fun c => List.Forall₂ (MirrorsItem infer c) js) (RefusedIn (j :: js)) :=
        (elements_settles js).weaken id fun _ => .tail
      rw [elements_cons]
      refine (one.bind fun _ v _ => others.followedBy fun _ vs _ => .pure trivial ?_).weaken
        (fun both => List.forall_mem_cons.mpr both) fun _ refused => refused
      exact fun later rest first => .cons first rest
termination_by sizeOf js

theorem typedEntries_settles (es : List (String × Json)) :
    (typedEntries infer es).Settles (∀ e ∈ es, e.2.Distinct)
      (fun c => List.Forall₂ (MirrorsEntry infer c) es) (RefusedIn (es.map (·.2))) := by
  match es with
  | [] => exact .pure (by simp) fun _ => .nil
  | (name, j) :: es =>
      have one : (j.typed infer).Settles j.Distinct (fun c made => Mirrors infer c j made.1 made.2)
          (RefusedIn (j :: es.map (·.2))) := (typed_settles j).weaken id fun _ => .head
      have others : (typedEntries infer es).Settles (∀ e ∈ es, e.2.Distinct)
          (fun c => List.Forall₂ (MirrorsEntry infer c) es) (RefusedIn (j :: es.map (·.2))) :=
        (typedEntries_settles es).weaken id fun _ => .tail
      simp only [typedEntries]
      refine (one.bind fun _ made _ => others.followedBy fun _ fields _ => .pure trivial ?_).weaken
        (fun both => List.forall_mem_cons.mpr both) fun _ refused => refused
      exact fun later rest first => .cons (.mk first) rest
termination_by sizeOf es

end

/-- Without a limit for record types, a document is made into a value exactly if no object in it
has two keys that are equal in any case. The value mirrors the document; the error names a key of
such an object. -/
theorem materialize_outcome (infer : Bool) (n : Json) {c : RecordCache}
    (unlimited : c.limit = none) :
    ((∃ v c', n.materialize infer c = .ok v c') ↔
        ∀ entries, HasObject entries n → CaseDistinct entries) ∧
      (∀ v c', n.materialize infer c = .ok v c' → ∃ t, Mirrors infer c' n t v) ∧
      ∀ e c', n.materialize infer c = .error e c' → Refused n e := by
  have settled : (n.materialize infer).Settles n.Distinct
      (fun c v => ∃ t, Mirrors infer c n t v) (Refused n) := by
    unfold materialize
    exact (typed_settles n).map _ fun c made h => ⟨made.1, h⟩
  rcases settled c unlimited with ⟨v, c', ran, -, -, distinct, mirrors⟩ | ⟨e, c', ran, refused⟩
  · refine ⟨⟨fun _ => distinct, fun _ => ⟨v, c', ran⟩⟩, fun v' c'' again => ?_, ?_⟩
    · cases ran.symm.trans again
      exact mirrors c' (.refl c')
    · intro e c'' failed
      cases ran.symm.trans failed
  · refine ⟨⟨?_, fun distinct => absurd distinct refused.not_distinct⟩, ?_, fun e' c'' failed => ?_⟩
    · rintro ⟨v, c'', made⟩
      cases ran.symm.trans made
    · intro v c'' made
      cases ran.symm.trans made
    · cases ran.symm.trans failed
      exact refused

theorem materialize_outcome_keys :
    (RecordCache.empty none).limit = none ∧
      (∃ v c, (object [("a", array [])]).materialize false (.empty none) = .ok v c) ∧
      ∃ e c, (object [("a", null), ("A", null)]).materialize false (.empty none) = .error e c := by
  have outcome (n : Json) := materialize_outcome false n (c := .empty none) rfl
  have distinct : (object [("a", array [])]).Distinct :=
    distinct_object.mpr ⟨by decide, by simp [distinct_array]⟩
  refine ⟨rfl, (outcome _).1.mpr distinct, ?_⟩
  cases ran : (object [("a", null), ("A", null)]).materialize false (.empty none) with
  | ok v c => exact absurd ((outcome _).1.mp ⟨v, c, ran⟩ _ .here) (by decide)
  | error e c => exact ⟨e, c, rfl⟩

end Json
end TypedExpr
