import TypedExpr.Proofs.MemberNames

/-! # Runs of changes to a record

A record begins with the defaults of its properties or with values that fit them, and its properties
are then set one after the other. What is set by name reaches one field, the one that all spellings
of this name read, and what does not fit reaches none. So a record has a value that conforms for
each property at any time.
-/

namespace TypedExpr

theorem Value.defaultOf_conformsTo (t : Ty) : (Value.defaultOf t).conformsTo t := by
  cases t with
  | predefined p => cases p <;> simp [defaultOf, conformsTo, typeOf, Ty.isValueType]
  | nullable | record | cls | sequence | array | lambda => rfl
  | enum e => simp [defaultOf, conformsTo]

/-- Where names are distinct, a property is found by each spelling of its name. -/
theorem RecordType.fieldIndex?_eq_some_iff {type : RecordType} {name : String} {i : Nat}
    (distinct : (RecordCache.shapeKeys type.properties).Nodup) :
    type.fieldIndex? name = some i ↔
      ∃ p, type.properties[i]? = some p ∧ CaseMap.sameKey p.name name := by
  rw [Catalog.fieldIndex?_eq distinct, List.findIdx?_eq_some_iff_getElem]
  constructor
  · rintro ⟨inside, same, -⟩
    exact ⟨_, List.getElem?_eq_getElem inside, same⟩
  · rintro ⟨p, hp, same⟩
    obtain ⟨inside, rfl⟩ := List.getElem?_eq_some_iff.mp hp
    have apart := List.pairwise_iff_getElem.mp (List.pairwise_map.mp distinct)
    refine ⟨inside, same, fun j before again => apart j i (before.trans inside) inside before ?_⟩
    simp only [CaseMap.sameKey, beq_iff_eq] at same again
    rw [again, same]

namespace Record

variable {type : RecordType} {r r' : Record} {name other : String} {v : Value} {i : Nat}
  {p : Property} {properties : List Property} {values : List Value} {e : RecordError}

/-! ## Values that fit -/

/-- There is one value for each property, and it conforms to the type of the property. -/
structure Fits (values : List Value) (properties : List Property) : Prop where
  length : values.length = properties.length
  each : ∀ {i : Nat} {v : Value} {p : Property}, values[i]? = some v → properties[i]? = some p →
    v.conformsTo p.ty

theorem fits_cons : Fits (v :: values) (p :: properties) ↔
    v.conformsTo p.ty ∧ Fits values properties := by
  constructor
  · rintro ⟨length, each⟩
    exact ⟨each (i := 0) rfl rfl, Nat.succ.inj length, fun {i} => each (i := i + 1)⟩
  · rintro ⟨first, length, each⟩
    refine ⟨congrArg (· + 1) length, fun {i u q} hv hp => ?_⟩
    cases i with
    | zero =>
        cases hv
        cases hp
        exact first
    | succ i => exact each hv hp

theorem fits_defaults (properties : List Property) :
    Fits (properties.map fun p => Value.defaultOf p.ty) properties where
  length := List.length_map _
  each {i v p} hv hp := by
    rw [List.getElem?_map, hp] at hv
    cases hv
    exact Value.defaultOf_conformsTo p.ty

theorem checkFields_ok_iff (length : values.length = properties.length) :
    checkFields properties values = .ok () ↔ Fits values properties := by
  induction properties generalizing values with
  | nil =>
      cases List.length_eq_zero_iff.mp length
      exact iff_of_true rfl ⟨rfl, nofun⟩
  | cons p ps ih =>
      cases values with
      | nil => cases length
      | cons v vs =>
          have rest := ih (Nat.succ.inj length)
          rw [fits_cons, checkFields, checkField]
          by_cases first : v.conformsTo p.ty
          · rw [if_pos first]
            exact rest.trans (and_iff_right first).symm
          · rw [if_neg first]
            exact iff_of_false nofun fun h => first h.1

/-- A record is made of values just if they fit. -/
theorem ofValues_ok_iff :
    ofValues type values = .ok r ↔ r = ⟨type, values⟩ ∧ Fits values type.properties := by
  by_cases length : values.length = type.properties.length
  · rw [ofValues, if_neg (not_not.mpr length), ← checkFields_ok_iff length]
    cases checkFields type.properties values with
    | ok => simp [Bind.bind, Except.bind, Pure.pure, Except.pure, eq_comm]
    | error e =>
        refine iff_of_false ?_ ?_
        · rintro ⟨⟩
        · rintro ⟨-, ⟨⟩⟩
  · rw [ofValues, if_pos length]
    refine iff_of_false ?_ fun h => length h.2.length
    rintro ⟨⟩

theorem Fits.set (fits : Fits values properties) (hp : properties[i]? = some p)
    (h : v.conformsTo p.ty) : Fits (values.set i v) properties where
  length := (List.length_set ..).trans fits.length
  each {j u q} hu hq := by
    rw [List.getElem?_set] at hu
    split at hu
    · rename_i here
      obtain rfl : q = p := Option.some.inj (hq.symm.trans (here ▸ hp))
      cases (Option.ite_none_right_eq_some.mp hu).2
      exact h
    · exact fits.each hu hq

/-! ## One change -/

/-- What can come of setting a property, and when. -/
inductive Change (r : Record) (name : String) (v : Value) : Except RecordError Record → Prop where
  | unknown (h : ∀ p ∈ r.type.properties, CaseMap.sameKey p.name name = false) :
      Change r name v (.error (.unknownProperty name r.type.name))
  | mismatch {i : Nat} {p : Property} (hp : r.type.properties[i]? = some p)
      (same : CaseMap.sameKey p.name name) (h : v.conformsTo p.ty = false) :
      Change r name v (.error (.typeMismatch p.name p.ty.toText v.typeOf.toText))
  | changed {i : Nat} {p : Property} (hp : r.type.properties[i]? = some p)
      (same : CaseMap.sameKey p.name name) (h : v.conformsTo p.ty) :
      Change r name v (.ok { r with fields := r.fields.set i v })

theorem set_change (distinct : (RecordCache.shapeKeys r.type.properties).Nodup) (name : String)
    (v : Value) : Change r name v (r.set name v) := by
  unfold set
  cases place : r.type.fieldIndex? name with
  | none =>
      refine .unknown fun p hp => ?_
      rw [Catalog.fieldIndex?_eq distinct, List.findIdx?_eq_none_iff] at place
      exact place p hp
  | some i =>
      obtain ⟨p, hp, same⟩ := (RecordType.fieldIndex?_eq_some_iff distinct).mp place
      dsimp only
      rw [hp]
      by_cases fits : v.conformsTo p.ty
      · simp only [checkField, if_pos fits]
        exact .changed hp same fits
      · simp only [checkField, if_neg fits]
        exact .mismatch hp same (Bool.eq_false_of_not_eq_true fits)

theorem get?_eq_some_iff (distinct : (RecordCache.shapeKeys r.type.properties).Nodup) :
    r.get? name = some v ↔ ∃ (i : Nat) (p : Property), r.type.properties[i]? = some p ∧
      CaseMap.sameKey p.name name ∧ r.fields[i]? = some v := by
  simp only [get?, Option.bind_eq_some_iff, RecordType.fieldIndex?_eq_some_iff distinct]
  constructor
  · rintro ⟨i, ⟨p, hp, same⟩, hv⟩
    exact ⟨i, p, hp, same, hv⟩
  · rintro ⟨i, p, hp, same, hv⟩
    exact ⟨i, ⟨p, hp, same⟩, hv⟩

/-- What is set under a name is found under all spellings of this name, and under no other. -/
theorem get?_set (distinct : (RecordCache.shapeKeys r.type.properties).Nodup)
    (fits : Fits r.fields r.type.properties) (hp : r.type.properties[i]? = some p)
    (same : CaseMap.sameKey p.name name) (other : String) :
    ({ r with fields := r.fields.set i v } : Record).get? other =
      if CaseMap.sameKey name other then some v else r.get? other := by
  simp only [get?]
  split
  · rename_i spelled
    simp only [CaseMap.sameKey, beq_iff_eq] at same spelled
    have place : r.type.fieldIndex? other = some i :=
      (RecordType.fieldIndex?_eq_some_iff distinct).mpr
        ⟨p, hp, by simp [CaseMap.sameKey, same, spelled]⟩
    obtain ⟨inside, -⟩ := List.getElem?_eq_some_iff.mp hp
    rw [place, Option.bind_some, List.getElem?_set_self (fits.length ▸ inside)]
  · rename_i apart
    refine Option.bind_congr fun j place => List.getElem?_set_ne ?_
    rintro rfl
    obtain ⟨q, hq, found⟩ := (RecordType.fieldIndex?_eq_some_iff distinct).mp place
    obtain rfl := Option.some.inj (hp.symm.trans hq)
    simp only [CaseMap.sameKey, beq_iff_eq] at same found apart
    exact apart (same.symm.trans found)

/-! ## Sequences of changes -/

/-- The record after its property has been set; a failure leaves it as it is. -/
def assign (r : Record) (name : String) (v : Value) : Record :=
  match r.set name v with
  | .ok r' => r'
  | .error _ => r

/-- The record after some attempts to set properties, one after the other. -/
def assignAll (r : Record) (sets : List (String × Value)) : Record :=
  sets.foldl (fun r s => r.assign s.1 s.2) r

/-- The record is of this type, and its values fit. -/
def Of (type : RecordType) (r : Record) : Prop := r.type = type ∧ Fits r.fields type.properties

/-- A step keeps the type and that the values fit. -/
theorem Of.assign (distinct : (RecordCache.shapeKeys type.properties).Nodup) (h : Of type r)
    (name : String) (v : Value) : Of type (r.assign name v) := by
  obtain ⟨rfl, fits⟩ := h
  have change := set_change distinct name v
  unfold Record.assign
  generalize r.set name v = outcome at change
  cases change with
  | unknown | mismatch => exact ⟨rfl, fits⟩
  | changed hp same h => exact ⟨rfl, fits.set hp h⟩

theorem Of.assignAll (distinct : (RecordCache.shapeKeys type.properties).Nodup) (h : Of type r)
    (sets : List (String × Value)) : Of type (r.assignAll sets) := by
  induction sets generalizing r with
  | nil => exact h
  | cons s sets ih => exact ih (h.assign distinct s.1 s.2)

/-- What holds of a record of the type whatever has been done to it. -/
structure Steady (type : RecordType) (r : Record) : Prop where
  typed : r.type = type
  fits : Fits r.fields type.properties
  /-- Under each spelling of its name, a property has the value of its own field. -/
  read : ∀ name v, r.get? name = some v ↔ ∃ (i : Nat) (p : Property),
    type.properties[i]? = some p ∧ CaseMap.sameKey p.name name ∧ r.fields[i]? = some v
  /-- A property can be set under each spelling of its name, to what conforms to its type. -/
  set_iff : ∀ name v, (∃ r', r.set name v = .ok r') ↔
    ∃ p ∈ type.properties, CaseMap.sameKey p.name name ∧ v.conformsTo p.ty
  /-- Then its field has the new value, and the other fields are what they were. -/
  changed : ∀ name v r', r.set name v = .ok r' → r'.type = type ∧
    ∃ (i : Nat) (p : Property), type.properties[i]? = some p ∧ CaseMap.sameKey p.name name ∧
      r'.fields[i]? = some v ∧ ∀ j ≠ i, r'.fields[j]? = r.fields[j]?
  /-- The new value is found under all spellings of the name, and nothing else has changed. -/
  found : ∀ name v r', r.set name v = .ok r' → ∀ other,
    r'.get? other = if CaseMap.sameKey name other then some v else r.get? other
  /-- An attempt that fails, and says why, leaves the record as it was. -/
  refused : ∀ name v e, r.set name v = .error e → r.assign name v = r ∧
    (e = .unknownProperty name type.name ∨
      ∃ p ∈ type.properties, CaseMap.sameKey p.name name ∧ v.conformsTo p.ty = false ∧
        e = .typeMismatch p.name p.ty.toText v.typeOf.toText)

theorem Of.steady (distinct : (RecordCache.shapeKeys type.properties).Nodup) (h : Of type r) :
    Steady type r := by
  obtain ⟨rfl, fits⟩ := h
  have single {p q : Property} (hp : p ∈ r.type.properties) (hq : q ∈ r.type.properties)
      {name : String} (same : CaseMap.sameKey p.name name) (same' : CaseMap.sameKey q.name name) :
      p = q := by
    refine List.inj_on_of_nodup_map distinct hp hq ?_
    simp only [CaseMap.sameKey, beq_iff_eq] at same same'
    exact same.trans same'.symm
  exact {
    typed := rfl
    fits := fits
    read := fun _ _ => get?_eq_some_iff distinct
    set_iff := by
      intro name v
      have change := set_change distinct name v
      generalize r.set name v = outcome at change
      cases change with
      | unknown h =>
          refine iff_of_false (by rintro ⟨_, ⟨⟩⟩) ?_
          rintro ⟨p, hp, same, -⟩
          cases (h p hp).symm.trans same
      | mismatch hp same h =>
          refine iff_of_false (by rintro ⟨_, ⟨⟩⟩) ?_
          rintro ⟨q, hq, same', conforms⟩
          obtain rfl := single (List.mem_of_getElem? hp) hq same same'
          cases h.symm.trans conforms
      | changed hp same h => exact iff_of_true ⟨_, rfl⟩ ⟨_, List.mem_of_getElem? hp, same, h⟩
    changed := by
      intro name v r' made
      have change := set_change distinct name v
      rw [made] at change
      cases change with
      | changed hp same h =>
          obtain ⟨inside, -⟩ := List.getElem?_eq_some_iff.mp hp
          exact ⟨rfl, _, _, hp, same, List.getElem?_set_self (fits.length ▸ inside),
            fun j other => List.getElem?_set_ne other.symm⟩
    found := by
      intro name v r' made other
      have change := set_change distinct name v
      rw [made] at change
      cases change with
      | changed hp same h => exact get?_set distinct fits hp same other
    refused := by
      intro name v e failed
      have change := set_change distinct name v
      have kept : r.assign name v = r := by rw [Record.assign, failed]
      rw [failed] at change
      cases change with
      | unknown => exact ⟨kept, .inl rfl⟩
      | mismatch hp same h => exact ⟨kept, .inr ⟨_, List.mem_of_getElem? hp, same, h, rfl⟩⟩ }

/-- Values make a record just if they fit; and from such a record or the one of the defaults on,
every sequence of changes leads to a record with a value that conforms for each property. -/
theorem assignAll_steady {cache cache' : RecordCache} {shape : List Property}
    (made : cache.getOrCreate shape = .ok (type, cache')) :
    (∀ values r, ofValues type values = .ok r ↔ r = ⟨type, values⟩ ∧ Fits values type.properties) ∧
    ∀ start, (start = ofDefaults type ∨ ∃ values, ofValues type values = .ok start) →
      ∀ sets, Steady type (start.assignAll sets) := by
  refine ⟨fun values r => ofValues_ok_iff, fun start begun sets => ?_⟩
  have distinct := Catalog.distinct_of_getOrCreate made
  have first : Of type start := by
    rcases begun with rfl | ⟨values, begun⟩
    · exact ⟨rfl, fits_defaults type.properties⟩
    · obtain ⟨rfl, fits⟩ := ofValues_ok_iff.mp begun
      exact ⟨rfl, fits⟩
  exact (first.assignAll distinct sets).steady distinct

/-- A record of a name and a number, after a change in another spelling and two that fail. -/
theorem assignAll_steady_count :
    let type : RecordType := ⟨1, [⟨"Name", .string⟩, ⟨"Count", .double⟩]⟩
    Steady type ((ofDefaults type).assignAll
      [("count", .double 3), ("Count", .string "three"), ("Missing", .null)]) := by
  have made : (RecordCache.empty none).getOrCreate [⟨"Name", .string⟩, ⟨"Count", .double⟩] =
      .ok (⟨1, [⟨"Name", .string⟩, ⟨"Count", .double⟩]⟩,
        ⟨[⟨1, [⟨"Name", .string⟩, ⟨"Count", .double⟩]⟩], none⟩) := rfl
  exact (assignAll_steady made).2 _ (.inl rfl) _

end Record
end TypedExpr
