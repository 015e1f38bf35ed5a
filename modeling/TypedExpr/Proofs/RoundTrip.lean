import TypedExpr.Json.Materialize
import TypedExpr.Json.OfValue
import TypedExpr.Proofs.Doubles
import TypedExpr.Proofs.Integer
import TypedExpr.Proofs.LeafTexts
import TypedExpr.Proofs.Reader

/-! # Values made of documents, as documents

A value that a document was made into is written as another document, with numbers for texts and
texts for numbers. Read again, that document is the same value: every leaf is judged as before,
and the types of the records have all been made.
-/

namespace TypedExpr

open Binary (ReadsBack)

/-! ## Leaves -/

namespace Json

/-- A number of a document is an integer of 64 bits with or without sign, or a finite double. -/
inductive Sized : Json → Prop where
  | null : Sized null
  | bool {b} : Sized (bool b)
  | int {n} (low : -2 ^ 63 ≤ n) (high : n < 2 ^ 64) : Sized (int n)
  | float {x} (h : (Binary.ofFloat x).isFinite) : Sized (float x)
  | string {s} : Sized (string s)
  | array {items} (h : ∀ j ∈ items, Sized j) : Sized (array items)
  | object {entries} (h : ∀ e ∈ entries, Sized e.2) : Sized (object entries)

/-- A leaf is judged by its text. -/
private theorem inferred_text {j : Json} {text : String} (h : j.leafText? = some text) :
    j.inferred = (string text).inferred := by
  have same : (string text).leafText? = some text := rfl
  unfold inferred
  rw [h, same]

private theorem inferred_double {x : Float} {text : String} (h : leafFloat? text = some x) :
    (string text).inferred = (.double, .double x) := by
  simp only [inferred, leafText?, h]

/-- A double is judged to be that double, however it is written. -/
theorem inferred_ofFloat {x : Float} (h : ReadsBack x) :
    (ofFloat x).inferred = (.double, .double x) := by
  unfold ofFloat
  cases value : Binary.ofFloat x with
  | finite negative m e =>
      obtain ⟨text, written⟩ : ∃ text, Binary.exchangeText? x = some text := by
        simp [Binary.exchangeText?, value]
      have printed : (float x).leafText? = some text := by
        simp [leafText?, compact, scalarText, written]
      simp only [BinaryValue.isFinite, if_true, inferred_text printed]
      exact inferred_double (h.leafFloat? written)
  | infinite negative =>
      have shown : Binary.display x = if negative then "-Infinity" else "Infinity" := by
        simp only [Binary.display, value]
      have plus : leafFloat? "Infinity" = some (1 / 0) := rfl
      have minus : leafFloat? "-Infinity" = some (-1 / 0) := rfl
      simp only [BinaryValue.isFinite, Bool.false_eq_true, if_false, shown]
      refine inferred_double ?_
      rw [Binary.eq_of_ofFloat_infinite value]
      cases negative
      · exact plus
      · exact minus
  | notANumber =>
      have shown : Binary.display x = "NaN" := by simp only [Binary.display, value]
      have nan : leafFloat? "NaN" = some (0 / 0) := rfl
      simp only [BinaryValue.isFinite, Bool.false_eq_true, if_false, shown]
      refine inferred_double ?_
      rw [Binary.eq_of_ofFloat_notANumber value]
      exact nan

/-- What a leaf is taken for is written as a leaf that is taken for the same. -/
theorem inferred_again {j : Json} (h : ∀ x, j.inferred.2 = .double x → ReadsBack x) :
    (ofValue j.inferred.2).inferred = j.inferred := by
  cases printed : j.leafText? with
  | none =>
      have missing : j.inferred = (.string, .null) := by simp only [inferred, printed]
      rw [missing]
      rfl
  | some text =>
      rw [inferred_text printed] at h ⊢
      cases read : leafFloat? text with
      | some x =>
          rw [inferred_double read] at h ⊢
          exact inferred_ofFloat (h x rfl)
      | none =>
          cases identified : leafGuid? text with
          | some g =>
              simp only [inferred, leafText?, read, identified, ofValue, leafFloat?_guid,
                leafGuid?_guid]
          | none => simp only [inferred, leafText?, read, identified, ofValue]

/-- What an element is written as has the form of the element. -/
theorem decoded_again {j : Json} (h : j.Sized) : (ofValue j.decoded).decoded = j.decoded := by
  cases h with
  | null | bool | string | array | object => rfl
  | float finite => simp only [decoded, ofValue, ofFloat, finite, if_true]
  | @int n low high =>
      by_cases short : IntKind.int64.Holds n
      · simp only [decoded, IntKind.ofInt?_of_holds short, ofValue, IntKind.wrap_val short]
      · have long : 2 ^ 63 ≤ n := by
          have bounds : IntKind.int64.low = -2 ^ 63 ∧ IntKind.int64.high = 2 ^ 63 - 1 := by decide
          rw [IntKind.Holds, bounds.1, bounds.2] at short
          omega
        have finite := Binary.isFinite_floatOfInt long high
        simp only [decoded, IntKind.ofInt?_of_not_holds short, ofValue, ofFloat, finite, if_true]

end Json

/-! ## Making again what has been made -/

namespace RecordCache

/-- All types of `c` are in `c'`, at their places. -/
def Extends (c' c : RecordCache) : Prop := c.types <+: c'.types

theorem Extends.refl (c : RecordCache) : c.Extends c := List.prefix_refl _

theorem Extends.trans {a b c : RecordCache} (h : c.Extends b) (h' : b.Extends a) : c.Extends a :=
  List.IsPrefix.trans h' h

theorem getOrCreate_ok {c c' : RecordCache} {shape : List Property} {r : RecordType}
    (h : c.getOrCreate shape = .ok (r, c')) :
    duplicateName? shape = none ∧ c'.get? shape = some r ∧ c'.Extends c := by
  unfold getOrCreate at h
  split at h
  · cases h
  · rename_i distinct
    refine ⟨distinct, ?_⟩
    split at h
    · rename_i found
      cases h
      exact ⟨found, .refl _⟩
    · rename_i missing
      split at h
      · cases h
        refine ⟨?_, List.prefix_append _ _⟩
        simp only [get?] at missing ⊢
        simp [List.find?_append, missing]
      · cases h

/-- A shape that has its type keeps it. -/
theorem Extends.get? {c later : RecordCache} {shape : List Property} {r : RecordType}
    (extended : later.Extends c) (found : c.get? shape = some r) : later.get? shape = some r := by
  obtain ⟨more, types⟩ := extended
  simp only [RecordCache.get?, ← types] at found ⊢
  simp [List.find?_append, found]

theorem getOrCreate_again {c c' later : RecordCache} {shape : List Property} {r : RecordType}
    (h : c.getOrCreate shape = .ok (r, c')) (extended : later.Extends c') :
    later.getOrCreate shape = .ok (r, later) := by
  obtain ⟨distinct, found, -⟩ := getOrCreate_ok h
  simp only [getOrCreate, distinct, extended.get? found]

end RecordCache

namespace Materializer

variable {α β : Type} {c c' : RecordCache}

theorem bind_ok {m : Materializer α} {f : α → Materializer β} {b : β}
    (h : (m >>= f) c = .ok b c') : ∃ a between, m c = .ok a between ∧ f a between = .ok b c' := by
  simp only [Bind.bind, EStateM.bind] at h
  split at h
  · exact ⟨_, _, ‹_›, h⟩
  · cases h

theorem map_ok {m : Materializer α} {f : α → β} {b : β} (h : (f <$> m) c = .ok b c') :
    ∃ a, m c = .ok a c' ∧ f a = b := by
  simp only [Functor.map, EStateM.map] at h
  split at h
  · cases h
    exact ⟨_, ‹_›, rfl⟩
  · cases h

/-- On every cache with the types of `c'`, which are more than those of `c`, the result is `a`, and
no type is made. -/
def Repeats (m : Materializer α) (a : α) (c c' : RecordCache) : Prop :=
  c'.Extends c ∧ ∀ later : RecordCache, later.Extends c' → m later = .ok a later

namespace Repeats

theorem pure (a : α) (c : RecordCache) : (Pure.pure a : Materializer α).Repeats a c c :=
  ⟨.refl c, fun _ _ => rfl⟩

theorem bind {m : Materializer α} {f : α → Materializer β} {a : α} {b : β}
    {between : RecordCache} (h : m.Repeats a c between) (hf : (f a).Repeats b between c') :
    (m >>= f).Repeats b c c' := by
  refine ⟨hf.1.trans h.1, fun later extended => ?_⟩
  simp only [Bind.bind, EStateM.bind, h.2 later (extended.trans hf.1)]
  exact hf.2 later extended

theorem map {m : Materializer α} {a : α} (f : α → β) (h : m.Repeats a c c') :
    (f <$> m).Repeats (f a) c c' := by
  refine ⟨h.1, fun later extended => ?_⟩
  simp only [Functor.map, EStateM.map, h.2 later extended]

end Repeats

theorem recordType_repeats {shape : List Property} {r : RecordType}
    (h : recordType shape c = .ok r c') :
    (recordType shape).Repeats r c c' ∧ r.properties = shape := by
  unfold recordType at h
  split at h
  · rename_i made
    cases h
    refine ⟨⟨(RecordCache.getOrCreate_ok made).2.2, fun later extended => ?_⟩,
      RecordCache.getOrCreate_properties made⟩
    simp only [recordType, RecordCache.getOrCreate_again made extended]
  · cases h

/-- A record made of these fields has them, and is made of them again. -/
theorem record_repeats {fields : List (Property × Value)} {r : Record}
    (h : record fields c = .ok r c') :
    (record fields).Repeats r c c' ∧ r.type.properties = fields.map (·.1) ∧
      r.fields = fields.map (·.2) := by
  obtain ⟨type, between, typed, h⟩ := bind_ok h
  obtain ⟨repeated, properties⟩ := recordType_repeats typed
  cases made : Record.ofValues type (fields.map (·.2)) with
  | ok r' =>
      rw [made] at h
      cases h
      obtain rfl := Record.ofValues_ok made
      refine ⟨repeated.bind ?_, properties, rfl⟩
      simp only [made]
      exact .pure _ _
  | error e =>
      rw [made] at h
      cases h

end Materializer

namespace Value

/-- The double stands in the value, at any depth of sequences and records. -/
inductive HasDouble (x : Float) : Value → Prop where
  | double : HasDouble x (.double x)
  | item {items v} (mem : v ∈ items) (h : HasDouble x v) : HasDouble x (.sequence items)
  | field {r fields v} (mem : v ∈ fields) (h : HasDouble x v) : HasDouble x (.record r fields)

end Value

namespace Json

open Materializer

variable {infer : Bool} {c c' : RecordCache}

private theorem typed_of_leaf {j : Json} (h : j.isLeaf) : j.typed infer = pure j.inferred := by
  cases j with
  | array | object => cases h
  | _ => simp only [typed]

private theorem isLeaf_ofFloat (x : Float) : (ofFloat x).isLeaf := by
  unfold ofFloat
  split <;> rfl

private theorem isLeaf_inferred (j : Json) : (ofValue j.inferred.2).isLeaf := by
  unfold inferred
  split
  · rfl
  · split
    · exact isLeaf_ofFloat _
    · split <;> rfl

private theorem isLeaf_decoded (j : Json) : (ofValue j.decoded).isLeaf := by
  cases j with
  | int n =>
      cases word : IntKind.int64.ofInt? n with
      | some w =>
          simp only [decoded, word]
          rfl
      | none =>
          simp only [decoded, word]
          exact isLeaf_ofFloat _
  | float x => exact isLeaf_ofFloat x
  | _ => rfl

private theorem leaf_again {j : Json} {t : Ty} {v : Value} (leaf : j.isLeaf)
    (h : j.typed infer c = .ok (t, v) c') (back : ∀ x, v.HasDouble x → ReadsBack x) :
    ((ofValue v).typed infer).Repeats (t, v) c c' := by
  rw [typed_of_leaf leaf] at h
  obtain ⟨judged, rfl⟩ : j.inferred = (t, v) ∧ c = c' := by
    injection h with judged same
    exact ⟨judged, same⟩
  have again : (ofValue j.inferred.2).inferred = j.inferred := by
    refine inferred_again fun x double => back x ?_
    rw [judged] at double
    obtain rfl : v = .double x := double
    exact .double
  have again_leaf := isLeaf_inferred j
  rw [judged] at again again_leaf
  rw [typed_of_leaf again_leaf, again]
  exact .pure _ _

private theorem isLeaf_again {j : Json} {t : Ty} {v : Value}
    (h : j.typed infer c = .ok (t, v) c') : (ofValue v).isLeaf = j.isLeaf := by
  have judged : j.isLeaf → (ofValue v).isLeaf := by
    intro leaf
    rw [typed_of_leaf leaf] at h
    injection h with judged
    simpa [judged] using isLeaf_inferred j
  cases j with
  | object entries =>
      simp only [typed] at h
      obtain ⟨_, _, -, h⟩ := bind_ok h
      obtain ⟨r, _, -, h⟩ := bind_ok h
      cases h
      rfl
  | array items =>
      simp only [typed] at h
      obtain ⟨_, _, -, h⟩ := bind_ok h
      cases h
      rfl
  | null | bool | int | float | string => exact judged rfl

/-- An element as it is read: judged by its text, or left as it is written. -/
def element (infer : Bool) (j : Json) : Materializer Value :=
  if j.isLeaf && !infer then pure j.decoded else (·.2) <$> typed infer j

private theorem element_again {j : Json} {v : Value} (h : element infer j c = .ok v c')
    (sized : j.Sized)
    (typed_again : ∀ t, j.typed infer c = .ok (t, v) c' →
      ((ofValue v).typed infer).Repeats (t, v) c c') :
    (element infer (ofValue v)).Repeats v c c' := by
  unfold element at h ⊢
  cases plain : j.isLeaf && !infer with
  | true =>
      rw [if_pos plain] at h
      obtain ⟨rfl, rfl⟩ : j.decoded = v ∧ c = c' := by
        injection h with value same
        exact ⟨value, same⟩
      simp only [Bool.and_eq_true] at plain
      rw [decoded_again sized, if_pos (by rw [isLeaf_decoded, plain.2]; rfl)]
      exact .pure _ _
  | false =>
      rw [if_neg (by rw [plain]; decide)] at h
      obtain ⟨⟨t, v'⟩, typed, rfl⟩ := map_ok h
      rw [if_neg (by rw [isLeaf_again typed, plain]; decide)]
      exact (typed_again t typed).map _

theorem elements_cons (j : Json) (js : List Json) :
    elements infer (j :: js) = do
      let v ← element infer j
      let vs ← elements infer js
      return v :: vs := by
  simp only [elements, element]
  split <;> rfl

mutual

private theorem typed_again {c c' : RecordCache} {j : Json} {t : Ty} {v : Value}
    (h : j.typed infer c = .ok (t, v) c') (sized : j.Sized)
    (back : ∀ x, v.HasDouble x → ReadsBack x) :
    ((ofValue v).typed infer).Repeats (t, v) c c' := by
  cases j with
  | object entries =>
      simp only [typed] at h
      obtain ⟨fields, between, read, h⟩ := bind_ok h
      obtain ⟨r, last, made, h⟩ := bind_ok h
      cases h
      obtain ⟨repeated, properties, values⟩ := record_repeats made
      cases sized with
      | object sized =>
          have entries_again := typedEntries_again read sized fun x f mem h =>
            back x (.field (values ▸ List.mem_map_of_mem mem) h)
          have document : ofValue r.toValue =
              object (ofFields (fields.map (·.1)) (fields.map (·.2))) := by
            simp only [Record.toValue, ofValue, properties, values]
          have typed_record : Repeats (do return (Ty.object, (← record fields).toValue))
              (Ty.object, r.toValue) between c' := repeated.bind (.pure _ _)
          rw [document]
          simp only [typed]
          exact entries_again.bind typed_record
  | array items =>
      simp only [typed] at h
      obtain ⟨vs, between, read, h⟩ := bind_ok h
      cases h
      cases sized with
      | array sized =>
          simp only [ofValue, typed]
          exact (elements_again read sized fun x v mem h => back x (.item mem h)).bind (.pure _ _)
  | null | bool | int | float | string => exact leaf_again rfl h back
termination_by sizeOf j

private theorem elements_again {c c' : RecordCache} {js : List Json} {vs : List Value}
    (h : elements infer js c = .ok vs c') (sized : ∀ j ∈ js, j.Sized)
    (back : ∀ x, ∀ v ∈ vs, v.HasDouble x → ReadsBack x) :
    (elements infer (ofItems vs)).Repeats vs c c' := by
  match js with
  | [] =>
      cases h
      exact .pure _ _
  | j :: js =>
      rw [elements_cons] at h
      obtain ⟨v, between, one, h⟩ := bind_ok h
      obtain ⟨vs, last, others, h⟩ := bind_ok h
      cases h
      have first := element_again one (sized j (by simp)) fun t typed =>
        typed_again typed (sized j (by simp)) fun x => back x v (by simp)
      have rest := elements_again others (fun j mem => sized j (by simp [mem]))
        fun x v mem => back x v (by simp [mem])
      rw [ofItems, elements_cons]
      exact first.bind (rest.bind (.pure _ _))
termination_by sizeOf js

private theorem typedEntries_again {c c' : RecordCache} {es : List (String × Json)}
    {fields : List (Property × Value)}
    (h : typedEntries infer es c = .ok fields c') (sized : ∀ e ∈ es, e.2.Sized)
    (back : ∀ x, ∀ f ∈ fields, f.2.HasDouble x → ReadsBack x) :
    (typedEntries infer (ofFields (fields.map (·.1)) (fields.map (·.2)))).Repeats fields c c' := by
  match es with
  | [] =>
      cases h
      exact .pure _ _
  | (name, j) :: rest =>
      simp only [typedEntries] at h
      obtain ⟨⟨t, v⟩, between, one, h⟩ := bind_ok h
      obtain ⟨fields, last, others, h⟩ := bind_ok h
      cases h
      have first := typed_again one (sized (name, j) (by simp)) fun x =>
        back x (⟨name, t⟩, v) (by simp)
      have rest := typedEntries_again others (fun e mem => sized e (by simp [mem]))
        fun x f mem => back x f (by simp [mem])
      simp only [List.map_cons, ofFields, typedEntries]
      exact first.bind (rest.bind (.pure _ _))
termination_by sizeOf es

end

/-- A value made of a document is made again of the document that it is written as. Its record
types are found, none is made. -/
theorem materialize_ofValue {n : Json} {v : Value} (sized : n.Sized)
    (h : n.materialize infer c = .ok v c') (back : ∀ x, v.HasDouble x → ReadsBack x) :
    (ofValue v).materialize infer c' = .ok v c' := by
  obtain ⟨⟨t, v⟩, typed, rfl⟩ := map_ok h
  exact ((typed_again typed sized back).map _).2 c' (.refl c')

/-- A number among texts and elements. -/
private def readings : Json :=
  object [("count", int 5), ("ratio", string "NaN"), ("items", array [int 7, bool true])]

private def readingsType : RecordType :=
  ⟨1, [⟨"count", .double⟩, ⟨"ratio", .double⟩, ⟨"items", .sequence .object⟩]⟩

private def five : Float := Binary.toFloat 0x4014000000000000

private def madeReadings : Value :=
  .record readingsType [.double five, .double (0 / 0),
    .sequence [.integer .int64 (IntKind.int64.wrap 7), .boolean true]]

theorem materialize_ofValue_readings :
    readings.Sized ∧
      readings.materialize false (.empty none) = .ok madeReadings ⟨[readingsType], none⟩ ∧
      (ofValue madeReadings).materialize false ⟨[readingsType], none⟩ =
        .ok madeReadings ⟨[readingsType], none⟩ := by
  have elements : (array [int 7, bool true]).Sized := by
    refine .array ?_
    simpa using ⟨.int (by decide) (by decide), .bool⟩
  have sized : readings.Sized := by
    refine .object ?_
    simpa using ⟨.int (by decide) (by decide), .string, elements⟩
  have made : readings.materialize false (.empty none) =
      .ok madeReadings ⟨[readingsType], none⟩ := rfl
  refine ⟨sized, made, materialize_ofValue sized made ?_⟩
  intro x contained
  cases contained with
  | field mem contained =>
      simp only [List.mem_cons, List.not_mem_nil, or_false] at mem
      rcases mem with rfl | rfl | rfl
      · cases contained
        rintro text ⟨⟩
        rfl
      · cases contained
        rintro text ⟨⟩
      · cases contained with
        | item mem contained =>
            simp only [List.mem_cons, List.not_mem_nil, or_false] at mem
            rcases mem with rfl | rfl <;> cases contained

end Json
end TypedExpr
