import TypedExpr.Catalog
import TypedExpr.Proofs.Keys
import TypedExpr.Proofs.RoundTrip

/-! # Members by name

Members are found by name in two ways. An expression passes over the case of ASCII letters; a
record or a class, asked by its own keys, passes over all case. Names that agree in the first way
agree in the second, so that an expression finds nothing but what the keys find. What it misses is
written with other letters that only differ in case.
-/

namespace TypedExpr

namespace Text

/-! ## Small letters of texts in any ASCII case -/

/-- Whatever holds of the capitals `A` to `Z` and, under the name of itself, of all else. -/
theorem of_capitals {P : Char → Char → Prop} (c : Char)
    (capitals : ∀ n ∈ List.range' 65 26, P (Char.ofNat n).toLower (Char.ofNat n))
    (others : ∀ d, P d d) : P c.toLower c := by
  by_cases capital : 65 ≤ c.toNat ∧ c.toNat ≤ 90
  · have found := capitals c.toNat (List.mem_range'_1.mpr ⟨capital.1, by omega⟩)
    rwa [Char.ofNat_toNat] at found
  · have small : c.toLower = c := dif_neg capital
    rw [small]
    exact others c

theorem isCased_toLower (c : Char) : isCased c.toLower = isCased c :=
  of_capitals (P := fun d c => isCased d = isCased c) c
    (by decide +kernel) fun _ => rfl

theorem isCaseIgnorable_toLower (c : Char) : isCaseIgnorable c.toLower = isCaseIgnorable c :=
  of_capitals (P := fun d c => isCaseIgnorable d = isCaseIgnorable c) c
    (by decide +kernel) fun _ => rfl

theorem lowerChar_toLower (c : Char) : lowerChar c.toLower = lowerChar c :=
  of_capitals (P := fun d c => lowerChar d = lowerChar c) c
    (by decide +kernel) fun _ => rfl

theorem toLower_eq_sigma_iff (c : Char) : c.toLower = 'Σ' ↔ c = 'Σ' :=
  of_capitals (P := fun d c => d = 'Σ' ↔ c = 'Σ') c
    (by decide +kernel) fun _ => .rfl

theorem nextIsCased_map_toLower (cs : List Char) :
    nextIsCased (cs.map Char.toLower) = nextIsCased cs := by
  unfold nextIsCased
  rw [List.dropWhile_map]
  simp only [Function.comp_def, isCaseIgnorable_toLower]
  cases cs.dropWhile isCaseIgnorable with
  | nil => rfl
  | cons c rest => exact isCased_toLower c

/-- Neither the letters nor the place of a final sigma change with the case of ASCII letters. -/
theorem lowerAfter_map_toLower (before cs : List Char) :
    lowerAfter (before.map Char.toLower) (cs.map Char.toLower) = lowerAfter before cs := by
  induction cs generalizing before with
  | nil => rfl
  | cons c rest ih =>
      simp only [List.map_cons, lowerAfter, toLower_eq_sigma_iff, lowerChar_toLower,
        nextIsCased_map_toLower]
      exact congrArg _ (ih (c :: before))

/-- Texts that differ in the case of ASCII letters differ in case. -/
theorem toLowercase_eq {a b : String} (h : sameIgnoringCase a b) :
    toLowercase a = toLowercase b := by
  have same : a.toList.map Char.toLower = b.toList.map Char.toLower :=
    sameIgnoringCase_iff.mp h
  unfold toLowercase
  rw [← lowerAfter_map_toLower [] a.toList, ← lowerAfter_map_toLower [] b.toList, same]

/-- A text of ASCII characters. -/
def isAscii (s : String) : Bool := s.toList.all fun c => c.toNat < 128

theorem lowerAfter_of_ascii {before cs : List Char} (h : ∀ c ∈ cs, c.toNat < 128) :
    lowerAfter before cs = cs.map Char.toLower := by
  induction cs generalizing before with
  | nil => rfl
  | cons c rest ih =>
      have ascii := h c List.mem_cons_self
      have noSigma : c ≠ 'Σ' := by
        rintro rfl
        exact absurd ascii (by decide)
      simp only [lowerAfter, if_neg noSigma, lowerChar, if_pos ascii]
      rw [ih fun d hd => h d (List.mem_cons_of_mem c hd)]
      rfl

/-- Among texts of ASCII characters the two ways of comparing are one. -/
theorem toLowercase_eq_iff {a b : String} (ha : isAscii a) (hb : isAscii b) :
    toLowercase a = toLowercase b ↔ sameIgnoringCase a b := by
  simp only [isAscii, List.all_eq_true, decide_eq_true_eq] at ha hb
  unfold toLowercase
  rw [lowerAfter_of_ascii ha, lowerAfter_of_ascii hb, String.ofList_inj]
  simp [sameIgnoringCase]

end Text

/-! ## Maps without keys that are taken twice -/

namespace CaseMap

variable {α : Type}

/-- A list of entries under distinct keys is the map of its entries. -/
theorem ofList_eq {entries : List (String × α)}
    (h : (entries.map fun e => Text.toLowercase e.1).Nodup) : ofList entries = ⟨entries⟩ := by
  suffices all : ∀ before : List (String × α),
      ((before ++ entries).map fun e => Text.toLowercase e.1).Nodup →
      entries.foldl (fun (m : CaseMap α) e => m.insert e.1 e.2) ⟨before⟩ =
        ⟨before ++ entries⟩ from all [] h
  clear h
  induction entries with
  | nil => simp
  | cons e rest ih =>
      intro before distinct
      have free : Text.toLowercase e.1 ∉ (⟨before⟩ : CaseMap α).keys := by
        rw [List.map_append, List.nodup_append] at distinct
        intro taken
        exact distinct.2.2 _ taken _ (by simp) rfl
      have added : (⟨before⟩ : CaseMap α).insert e.1 e.2 = ⟨before ++ [e]⟩ := by
        rw [insert, insert?_of_notMem _ free]
        rfl
      rw [List.foldl_cons, added]
      simpa using ih (before ++ [e]) (by simpa using distinct)

end CaseMap

/-- Where at most one entry passes the wider test, the narrower one finds that entry or none. -/
theorem find?_eq_filter_find? {α : Type} {narrow wide : α → Bool} {l : List α}
    (h : ∀ a, narrow a → wide a) (single : l.Pairwise fun a b => ¬ (wide a ∧ wide b)) :
    l.find? narrow = (l.find? wide).filter narrow := by
  induction single with
  | nil => rfl
  | @cons a rest alone _ ih =>
      by_cases found : wide a
      · by_cases near : narrow a
        · simp [found, near, Option.filter_some]
        · have missed : rest.find? narrow = none := by
            rw [List.find?_eq_none]
            intro b hb near
            exact alone b hb ⟨found, h b near⟩
          simp [found, near, missed, Option.filter_some]
      · have missed : ¬ narrow a := fun near => found (h a near)
        simpa [found, missed] using ih

namespace Catalog

/-! ## Members of one type -/

/-- Members of a type are told apart by their names in small letters. -/
def nameKeys (members : List Member) : List String := members.map fun m => Text.toLowercase m.name

/-- The test by which an expression finds a member of a value. -/
def isNamed (name : String) (m : Member) : Bool := m.isStatic == false && named name m.name

theorem isNamed_iff {name : String} {m : Member} :
    isNamed name m ↔ m.isStatic = false ∧ Text.sameIgnoringCase m.name name := by
  simp [isNamed, named]

/-- Among members of distinct names an expression finds the one that has the key, if its spelling
    is near enough. -/
theorem find?_isNamed {members : List Member} {name : String} (h : (nameKeys members).Nodup) :
    members.find? (isNamed name) =
      (members.find? fun m => CaseMap.sameKey m.name name).filter (isNamed name) := by
  refine find?_eq_filter_find? (fun m near => ?_) ?_
  · have same := Text.toLowercase_eq (isNamed_iff.mp near).2
    simpa [CaseMap.sameKey] using same
  · rw [nameKeys, List.Nodup, List.pairwise_map] at h
    refine h.imp fun {m n} apart both => apart ?_
    simp only [CaseMap.sameKey, beq_iff_eq] at both
    exact both.1.trans both.2.symm

/-- A type with nothing but `Object` above it has only its own members. -/
theorem property?_of_selfAndBases {t : Ty} (h : selfAndBases t = [t, .object]) (name : String) :
    property? t name false = (declaredMembers t).find? (isNamed name) := by
  have root : declaredMembers .object = [] := rfl
  show (selfAndBases t).findSome? (fun owner => (declaredMembers owner).find? (isNamed name)) = _
  rw [h, List.findSome?_cons]
  cases (declaredMembers t).find? (isNamed name) with
  | some m => rfl
  | none => simp [root]

/-! ## Records -/

/-- The field of a record at a place, as an expression sees it. -/
def fieldMember (i : Nat) (p : Property) : Member := ⟨p.name, p.ty, false, false, .field i⟩

theorem nameKeys_recordMembers (index : Nat) (ps : List Property) :
    nameKeys (recordMembers index ps) = RecordCache.shapeKeys ps := by
  induction ps generalizing index with
  | nil => rfl
  | cons p rest ih => exact congrArg _ (ih (index + 1))

theorem find?_recordMembers (test : String → Bool) (index : Nat) (ps : List Property) :
    (recordMembers index ps).find? (fun m => test m.name) =
      (ps.findIdx? fun p => test p.name).bind fun i => ps[i]?.map (fieldMember (index + i)) := by
  induction ps generalizing index with
  | nil => rfl
  | cons p rest ih =>
      by_cases found : test p.name
      · simp [recordMembers, List.findIdx?_cons, found, fieldMember]
      · simp only [recordMembers, List.find?_cons, found, List.findIdx?_cons, ih]
        cases rest.findIdx? fun p => test p.name with
        | none => rfl
        | some i => simp [Nat.add_assoc, Nat.add_comm 1 i]

/-- A record type whose names are distinct finds a property at its place in the list. -/
theorem fieldIndex?_eq {r : RecordType} (distinct : (RecordCache.shapeKeys r.properties).Nodup)
    (name : String) :
    r.fieldIndex? name = r.properties.findIdx? fun p => CaseMap.sameKey p.name name := by
  unfold RecordType.fieldIndex?
  rw [CaseMap.ofList_eq (by simpa [RecordCache.shapeKeys, Function.comp_def] using distinct)]
  simp [CaseMap.position?, List.findIdx?_map, Function.comp_def]

/-- An expression finds the field that the record type finds, if its spelling is near enough. -/
theorem property?_record {r : RecordType} (distinct : (RecordCache.shapeKeys r.properties).Nodup)
    (name : String) (m : Member) :
    property? (.record r) name false = some m ↔ ∃ i p, r.fieldIndex? name = some i ∧
      r.properties[i]? = some p ∧ Text.sameIgnoringCase p.name name ∧ m = fieldMember i p := by
  have searched : property? (.record r) name false =
      (recordMembers 0 r.properties).find? (isNamed name) := property?_of_selfAndBases rfl name
  rw [searched, find?_isNamed (by rwa [nameKeys_recordMembers]),
    find?_recordMembers (fun other => CaseMap.sameKey other name), fieldIndex?_eq distinct]
  simp only [Option.filter_eq_some_iff, Option.bind_eq_some_iff, Option.map_eq_some_iff,
    isNamed_iff, Nat.zero_add]
  constructor
  · rintro ⟨⟨i, hi, p, hp, rfl⟩, -, near⟩
    exact ⟨i, p, hi, hp, near, rfl⟩
  · rintro ⟨i, p, hi, hp, near, rfl⟩
    exact ⟨⟨i, hi, p, hp, rfl⟩, rfl, near⟩

/-! ## Classes of the host -/

/-- The entries of properties that are put under their names. -/
private theorem keys_of_properties (ps : List Property) {entries : List (String × Property)}
    (h : ∀ e ∈ entries, e ∈ (CaseMap.ofList (ps.map fun p => (p.name, p))).entries) :
    (entries.map fun e => Text.toLowercase e.2.name) =
      entries.map fun e => Text.toLowercase e.1 := by
  refine List.map_congr_left fun e he => ?_
  obtain ⟨p, -, rfl⟩ := List.mem_map.mp (CaseMap.mem_of_mem_ofList (h e he))
  rfl

/-- The members of a class that the host has declared have distinct names. -/
theorem nameKeys_withDistinctMembers (c : ClassType) :
    (nameKeys (classMembers c.withDistinctMembers)).Nodup := by
  let properties := CaseMap.ofList (c.properties.map fun p => (p.name, p))
  let fields := CaseMap.ofList (c.fields.map fun p => (p.name, p))
  let kept := fields.entries.filter fun e => !properties.contains e.1
  have split : nameKeys (classMembers c.withDistinctMembers) =
      properties.keys ++ kept.map fun e => Text.toLowercase e.1 := by
    have names : nameKeys (classMembers c.withDistinctMembers) =
        (properties.entries.map fun e => Text.toLowercase e.2.name) ++
          kept.map fun e => Text.toLowercase e.2.name := by
      simp [nameKeys, classMembers, ClassType.withDistinctMembers, CaseMap.values,
        Function.comp_def, properties, kept, fields]
    rw [names, keys_of_properties c.properties fun _ he => he,
      keys_of_properties c.fields fun e he => (List.mem_filter.mp he).1]
    rfl
  rw [split, List.nodup_append]
  refine ⟨CaseMap.keys_nodup_ofList _, ?_, ?_⟩
  · exact (CaseMap.keys_nodup_ofList _).sublist (List.filter_sublist.map _)
  · rintro key taken _ again rfl
    obtain ⟨e, he, rfl⟩ := List.mem_map.mp again
    have free : ¬ properties.contains e.1 := by simpa using (List.mem_filter.mp he).2
    exact free (CaseMap.contains_iff.mpr taken)

end Catalog

/-- The property or field that a class has under a name in any case. -/
def ClassType.member? (c : ClassType) (name : String) : Option Member :=
  (CaseMap.ofList ((Catalog.classMembers c).map fun m => (m.name, m))).get? name

namespace Catalog

theorem member?_eq {c : ClassType} (distinct : (nameKeys (classMembers c)).Nodup) (name : String) :
    c.member? name = (classMembers c).find? fun m => CaseMap.sameKey m.name name := by
  unfold ClassType.member?
  rw [CaseMap.ofList_eq (by simpa [nameKeys, Function.comp_def] using distinct)]
  simp [CaseMap.get?, CaseMap.entry?, List.find?_map, Function.comp_def]

/-- An expression finds the member that the class finds, if its spelling is near enough. -/
theorem property?_cls {c : ClassType} (distinct : (nameKeys (classMembers c)).Nodup)
    (h : selfAndBases (.cls c) = [.cls c, .object]) (name : String) (m : Member) :
    property? (.cls c) name false = some m ↔
      c.member? name = some m ∧ Text.sameIgnoringCase m.name name := by
  have searched : property? (.cls c) name false = (classMembers c).find? (isNamed name) :=
    property?_of_selfAndBases h name
  rw [searched, find?_isNamed distinct, member?_eq distinct, Option.filter_eq_some_iff, isNamed_iff]
  have instances : ∀ m ∈ classMembers c, m.isStatic = false := by
    simp [classMembers, or_imp, forall_and]
  constructor
  · rintro ⟨found, -, near⟩
    exact ⟨found, near⟩
  · rintro ⟨found, near⟩
    exact ⟨found, instances m (List.mem_of_find?_eq_some found), near⟩

/-! ## Both lookups -/

/-- Where the cache has given out a record type, its names are distinct. -/
theorem distinct_of_getOrCreate {cache cache' : RecordCache} {shape : List Property}
    {r : RecordType} (h : cache.getOrCreate shape = .ok (r, cache')) :
    (RecordCache.shapeKeys r.properties).Nodup := by
  obtain ⟨distinct, found, -⟩ := RecordCache.getOrCreate_ok h
  have same : r.properties = shape := by simpa using List.find?_some found
  rw [same]
  exact RecordCache.duplicateName?_eq_none_iff.mp distinct

/-- Nothing but `Object` is above the class in the chain that members are searched in. -/
def IsRoot (c : ClassType) : Prop := if c.isInterface then c.interfaces = [] else c.base = none

theorem selfAndBases_of_isRoot {c : ClassType} (h : IsRoot c) :
    selfAndBases (.cls c) = [.cls c, .object] := by
  obtain ⟨_, _, base, interfaces, isInterface, _, _, _, _, _, _⟩ := c
  cases isInterface with
  | true =>
      cases (show interfaces = [] from h)
      simp [selfAndBases, visitInterface, visitInterfaces]
  | false =>
      cases (show base = none from h)
      simp [selfAndBases, baseChain]

variable {name : String}

private theorem record_lookups {r : RecordType}
    (distinct : (RecordCache.shapeKeys r.properties).Nodup) :
    (∀ m, property? (.record r) name false = some m ↔ ∃ i p, r.fieldIndex? name = some i ∧
      r.properties[i]? = some p ∧ Text.sameIgnoringCase p.name name ∧ m = fieldMember i p) ∧
    (Text.isAscii name → (∀ p ∈ r.properties, Text.isAscii p.name) → ∀ i,
      (∃ m, property? (.record r) name false = some m ∧ m.access = .field i) ↔
        r.fieldIndex? name = some i) := by
  have exact := property?_record distinct name
  refine ⟨exact, fun ascii asciiNames i => ⟨?_, fun hi => ?_⟩⟩
  · rintro ⟨m, found, place⟩
    obtain ⟨j, p, hj, -, -, rfl⟩ := (exact m).mp found
    cases place
    exact hj
  · have first := hi
    rw [fieldIndex?_eq distinct, List.findIdx?_eq_some_iff_getElem] at first
    obtain ⟨inside, same, -⟩ := first
    have near : Text.sameIgnoringCase r.properties[i].name name :=
      (Text.toLowercase_eq_iff (asciiNames _ (List.getElem_mem inside)) ascii).mp
        (by simpa [CaseMap.sameKey] using same)
    exact ⟨_, (exact _).mpr ⟨i, _, hi, List.getElem?_eq_getElem inside, near, rfl⟩, rfl⟩

private theorem class_lookups {c : ClassType} (distinct : (nameKeys (classMembers c)).Nodup)
    (h : selfAndBases (.cls c) = [.cls c, .object]) :
    (∀ m, property? (.cls c) name false = some m ↔
      c.member? name = some m ∧ Text.sameIgnoringCase m.name name) ∧
    (Text.isAscii name → (∀ m ∈ classMembers c, Text.isAscii m.name) →
      property? (.cls c) name false = c.member? name) := by
  have exact := property?_cls distinct h name
  refine ⟨exact, fun ascii asciiNames => Option.ext fun m => (exact m).trans ?_⟩
  refine and_iff_left_of_imp fun found => ?_
  rw [member?_eq distinct] at found
  have same := List.find?_some found
  exact (Text.toLowercase_eq_iff (asciiNames m (List.mem_of_find?_eq_some found)) ascii).mp
    (by simpa [CaseMap.sameKey] using same)

/-- An expression reaches, under a name, the field of a record that the record type itself finds
    there, if the two spellings differ only in the case of ASCII letters, and otherwise nothing; it
    is the same with the members of a class that has no bases. Where all names are of ASCII
    characters, the lookups are one. -/
theorem property?_iff_found (name : String) :
    (∀ {cache cache' : RecordCache} {shape : List Property} {r : RecordType},
      cache.getOrCreate shape = .ok (r, cache') →
      (∀ m, property? (.record r) name false = some m ↔ ∃ i p, r.fieldIndex? name = some i ∧
        r.properties[i]? = some p ∧ Text.sameIgnoringCase p.name name ∧ m = fieldMember i p) ∧
      (Text.isAscii name → (∀ p ∈ r.properties, Text.isAscii p.name) → ∀ i,
        (∃ m, property? (.record r) name false = some m ∧ m.access = .field i) ↔
          r.fieldIndex? name = some i)) ∧
    (∀ {c declared : ClassType}, c = declared.withDistinctMembers → IsRoot c →
      (∀ m, property? (.cls c) name false = some m ↔
        c.member? name = some m ∧ Text.sameIgnoringCase m.name name) ∧
      (Text.isAscii name → (∀ m ∈ classMembers c, Text.isAscii m.name) →
        property? (.cls c) name false = c.member? name)) := by
  refine ⟨fun made => record_lookups (distinct_of_getOrCreate made), ?_⟩
  rintro c declared rfl root
  exact class_lookups (nameKeys_withDistinctMembers declared) (selfAndBases_of_isRoot root)

/-- A class with one property, and with a field of the same name. -/
private def person : ClassType :=
  ⟨7, "Person", none, [], false, none, [⟨"Name", .string⟩], [⟨"NAME", .int32⟩], [], [], []⟩

theorem property?_iff_found_name :
    (∃ m, property? (.record ⟨1, [⟨"Id", .int32⟩, ⟨"Name", .string⟩]⟩) "nAme" false = some m ∧
      m.access = .field 1) ∧
    property? (.cls person.withDistinctMembers) "nAme" false =
      person.withDistinctMembers.member? "nAme" := by
  have made : (RecordCache.empty none).getOrCreate [⟨"Id", .int32⟩, ⟨"Name", .string⟩] =
      .ok (⟨1, [⟨"Id", .int32⟩, ⟨"Name", .string⟩]⟩,
        ⟨[⟨1, [⟨"Id", .int32⟩, ⟨"Name", .string⟩]⟩], none⟩) := rfl
  have root : IsRoot person.withDistinctMembers := rfl
  constructor
  · refine (((property?_iff_found "nAme").1 made).2 (by decide) ?_ 1).mpr (by decide)
    simp only [List.forall_mem_cons]
    decide
  · refine ((property?_iff_found "nAme").2 rfl root).2 (by decide) ?_
    show ∀ m ∈ [(⟨"Name", .string, false, false, .hosted⟩ : Member)], Text.isAscii m.name
    simp only [List.forall_mem_cons]
    decide

/-- A field whose name has another capital is found by the record type, but not by an
    expression. -/
theorem property?_misses_accent :
    ∃ r cache, (RecordCache.empty none).getOrCreate [⟨"É", .int32⟩] = .ok (r, cache) ∧
      r.fieldIndex? "é" = some 0 ∧ property? (.record r) "é" false = none :=
  ⟨⟨1, [⟨"É", .int32⟩]⟩, ⟨[⟨1, [⟨"É", .int32⟩]⟩], none⟩, by rfl, by decide, by rfl⟩

end Catalog
end TypedExpr
