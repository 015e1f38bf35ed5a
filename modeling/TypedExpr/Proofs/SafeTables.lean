import TypedExpr.Proofs.SafeMembers

/-! # All members of plain types are safe

Dates and spans of time first; then, for every type, the methods, constructors, indexers,
properties and fields that it declares.
-/

namespace TypedExpr

open Outcome Value

variable {texts : Prop} {receiver a b : Value}

/-! ## Dates and spans of time -/

theorem BinaryOp.checkedDate_safe (t : Option DateTime) :
    (checkedDate t).Safe texts fun v => v.Conforms texts .dateTime := by
  unfold checkedDate
  split
  · split
    · exact .ok (.scalar rfl rfl rfl)
    · exact .error .overflow
  · exact .error .overflow

theorem TimeUnit.span_safe (u : TimeUnit) (amount : Float) :
    (u.span amount).Safe texts fun _ => True := by
  simp only [span]
  split
  · exact .error (.invalidArgument _)
  · split
    · exact .error .overflow
    · exact Safe.ofOption .overflow fun _ _ => trivial

namespace DateTimeMethod

open BinaryOp

theorem new_safe {args : List Value} (receiver : Value)
    (h : ∀ v ∈ args, v.Conforms texts .int32) :
    (new.call receiver args).Safe texts fun v => v.Conforms texts .dateTime :=
  Safe.bind (mapM_asInt32_safe h) fun _ _ => Safe.ofMap (.invalidArgument _) fun _ =>
    .scalar rfl rfl rfl

theorem addUnits_safe (u : TimeUnit) (hr : receiver.Conforms texts .dateTime) :
    ((addUnits u).call receiver [a]).Safe texts fun v => v.Conforms texts .dateTime :=
  Safe.bind (asFloat_safe a) fun amount _ => Safe.bind (u.span_safe amount) fun _ _ =>
    Safe.bind (asDateTime_safe hr) fun _ _ => checkedDate_safe _

theorem addMonths_safe (hr : receiver.Conforms texts .dateTime) (ha : a.Conforms texts .int32) :
    (addMonths.call receiver [a]).Safe texts fun v => v.Conforms texts .dateTime :=
  Safe.bind (asDateTime_safe hr) fun _ _ => Safe.bind (asInt32_safe ha) fun _ _ =>
    checkedDate_safe _

theorem addYears_safe (hr : receiver.Conforms texts .dateTime) (ha : a.Conforms texts .int32) :
    (addYears.call receiver [a]).Safe texts fun v => v.Conforms texts .dateTime :=
  Safe.bind (asInt32_safe ha) fun _ _ =>
    Safe.bind (Safe.ofOption .overflow fun _ _ => trivial) fun _ (_ : True) =>
      Safe.bind (asDateTime_safe hr) fun _ _ => checkedDate_safe _

theorem add_safe (hr : receiver.Conforms texts .dateTime) (ha : a.Conforms texts .timeSpan) :
    (add.call receiver [a]).Safe texts fun v => v.Conforms texts .dateTime :=
  Safe.bind (asDateTime_safe hr) fun _ _ => Safe.bind (asTimeSpan_safe ha) fun _ _ =>
    checkedDate_safe _

theorem difference_safe (hr : receiver.Conforms texts .dateTime)
    (ha : a.Conforms texts .dateTime) :
    (subtract.call receiver [a]).Safe texts fun v => v.Conforms texts .timeSpan := by
  obtain ⟨u, rfl⟩ := ha.dateTime
  exact Safe.bind (asDateTime_safe hr) fun _ _ => .ok (.scalar rfl rfl rfl)

theorem subtract_safe (hr : receiver.Conforms texts .dateTime)
    (ha : a.Conforms texts .timeSpan) :
    (subtract.call receiver [a]).Safe texts fun v => v.Conforms texts .dateTime := by
  obtain ⟨s, rfl⟩ := ha.timeSpan
  exact Safe.bind (asDateTime_safe hr) fun _ _ => checkedDate_safe _

theorem daysInMonth_safe (receiver : Value) (ha : a.Conforms texts .int32)
    (hb : b.Conforms texts .int32) :
    (daysInMonth.call receiver [a, b]).Safe texts fun v => v.Conforms texts .int32 :=
  Safe.bind (asInt32_safe ha) fun _ _ => Safe.bind (asInt32_safe hb) fun _ _ =>
    Safe.ofMap (.invalidArgument _) fun _ => .scalar rfl rfl rfl

theorem isLeapYear_safe (receiver : Value) (ha : a.Conforms texts .int32) :
    (isLeapYear.call receiver [a]).Safe texts fun v => v.Conforms texts .boolean := by
  refine Safe.bind (asInt32_safe ha) fun year _ => ?_
  split
  · exact .error (.invalidArgument _)
  · exact .ok (.scalar rfl rfl rfl)

end DateTimeMethod

namespace TimeSpanMethod

/-- Three or four numbers are a span of time, if they are not too great. -/
theorem ofNumbers_safe {numbers : List Int} (h : numbers.length = 3 ∨ numbers.length = 4) :
    (ofNumbers numbers).Safe texts fun _ => True := by
  have seconds (n : Int) : (ofNumbers.seconds n).Safe texts fun _ => True :=
    Safe.ofOption .overflow fun _ _ => trivial
  rcases h with h | h
  · obtain ⟨x, y, z, rfl⟩ := List.length_eq_three.mp h
    exact seconds _
  · match numbers, h with
    | [d, x, y, z], _ => exact seconds _

theorem new_safe {args : List Value} (receiver : Value)
    (hn : args.length = 3 ∨ args.length = 4) (h : ∀ v ∈ args, v.Conforms texts .int32) :
    (new.call receiver args).Safe texts fun v => v.Conforms texts .timeSpan := by
  simp only [call]
  split
  · simp at hn
  · refine Safe.bind (mapM_asInt32_safe h) fun numbers length => ?_
    exact Safe.bind (ofNumbers_safe (length ▸ hn)) fun _ _ => .ok (.scalar rfl rfl rfl)

theorem newOfTicks_safe (receiver : Value) (ha : a.Conforms texts .int64) :
    (new.call receiver [a]).Safe texts fun v => v.Conforms texts .timeSpan := by
  obtain ⟨ticks, rfl⟩ := ha.integer
  have known : (ofTicks ticks.val).Safe texts fun _ => True :=
    Safe.ofOption .overflow fun _ _ => trivial
  exact Safe.bind known fun _ _ => .ok (.scalar rfl rfl rfl)

theorem ofUnits_safe (u : TimeUnit) (receiver a : Value) :
    ((ofUnits u).call receiver [a]).Safe texts fun v => v.Conforms texts .timeSpan :=
  Safe.bind (asFloat_safe a) fun amount _ => Safe.bind (u.span_safe amount) fun _ _ =>
    .ok (.scalar rfl rfl rfl)

theorem onSpan_safe (f : TimeSpan → TimeSpan) (hr : receiver.Conforms texts .timeSpan) :
    (receiver.asTimeSpan >>= fun s => .ok (Value.timeSpan (f s))).Safe texts
      fun v => v.Conforms texts .timeSpan :=
  Safe.bind (asTimeSpan_safe hr) fun _ _ => .ok (.scalar rfl rfl rfl)

/-- A span made of two, if it is not too great. -/
theorem onSpans_safe (f : TimeSpan → TimeSpan → Option TimeSpan)
    (hr : receiver.Conforms texts .timeSpan) (ha : a.Conforms texts .timeSpan) :
    (receiver.asTimeSpan >>= fun r => a.asTimeSpan >>= fun s =>
      ofOption .overflow ((f r s).map Value.timeSpan)).Safe texts
        fun v => v.Conforms texts .timeSpan :=
  Safe.bind (asTimeSpan_safe hr) fun _ _ => Safe.bind (asTimeSpan_safe ha) fun _ _ =>
    Safe.ofMap .overflow fun _ => .scalar rfl rfl rfl

end TimeSpanMethod

namespace Catalog

open DateTimeMethod in
theorem dateTimeMethods_sound : ∀ m ∈ dateTimeMethods, m.Sound texts .dateTime := by
  have addition (name : String) (u : TimeUnit) :
      (dateTimeMethods.addition name u).Sound texts .dateTime :=
    onInstance_sound fun _ hr _ _ => addUnits_safe u hr
  simp only [dateTimeMethods, List.forall_mem_cons, List.not_mem_nil, false_implies, implies_true,
    and_true]
  exact ⟨addition _ _, addition _ _, addition _ _, addition _ _, addition _ _,
    onInstance_sound fun _ hr _ ha => addMonths_safe hr ha,
    onInstance_sound fun _ hr _ ha => addYears_safe hr ha,
    onInstance_sound fun _ hr _ ha => add_safe hr ha,
    onInstance_sound fun _ hr _ ha => difference_safe hr ha,
    onInstance_sound fun _ hr _ ha => subtract_safe hr ha,
    onType_sound fun r _ ha _ hb => daysInMonth_safe r ha hb,
    onType_sound fun r _ ha => isLeapYear_safe r ha, parse_sound⟩

open TimeSpanMethod in
theorem timeSpanMethods_sound : ∀ m ∈ timeSpanMethods, m.Sound texts .timeSpan := by
  have ofUnits (name : String) (u : TimeUnit) :
      (timeSpanMethods.ofUnits name u).Sound texts .timeSpan :=
    onType_sound fun r a _ => ofUnits_safe u r a
  simp only [timeSpanMethods, List.forall_mem_cons, List.not_mem_nil, false_implies, implies_true,
    and_true]
  exact ⟨ofUnits _ _, ofUnits _ _, ofUnits _ _, ofUnits _ _, ofUnits _ _, parse_sound,
    onInstance_sound fun _ hr _ ha => onSpans_safe TimeSpan.add? hr ha,
    onInstance_sound fun _ hr _ ha => onSpans_safe TimeSpan.sub? hr ha,
    onInstance_sound fun _ hr => onSpan_safe TimeSpan.neg hr,
    onInstance_sound fun _ hr => onSpan_safe TimeSpan.abs hr⟩

/-! ## Tables of methods -/

/-- Every method of a predefined type is safe. -/
theorem declaredMethods_sound (p : Predefined) :
    ∀ m ∈ declaredMethods (.predefined p), m.Sound texts (.predefined p) := by
  cases p with
  | object => exact objectMethods_sound
  | string => exact stringMethods_sound
  | char => exact charMethods_sound
  | math => exact mathMethods_sound
  | convert => exact convertMethods_sound
  | dateTime => exact dateTimeMethods_sound
  | timeSpan => exact timeSpanMethods_sound
  | boolean | integer | single | double | decimal | guid =>
      intro m hm
      cases List.mem_singleton.mp hm
      exact parse_sound

/-- Every constructor of a type that a text can name is safe. -/
theorem constructors_sound {t : Ty} (ht : Source.NamedTy t) :
    ∀ m ∈ constructors t, m.Sound texts t := by
  intro m hm
  cases ht with
  | nullable => cases hm
  | predefined p =>
      cases p with
      | dateTime =>
          simp only [constructors, dateTimeConstructors, List.mem_cons, List.not_mem_nil,
            or_false] at hm
          rcases hm with rfl | rfl
          · exact onType_sound fun r => .replicate fun _ _ h => DateTimeMethod.new_safe r h
          · exact onType_sound fun r => .replicate fun _ _ h => DateTimeMethod.new_safe r h
      | timeSpan =>
          simp only [constructors, timeSpanConstructors, List.mem_cons, List.not_mem_nil,
            or_false] at hm
          rcases hm with rfl | rfl | rfl
          · exact onType_sound fun r _ ha => TimeSpanMethod.newOfTicks_safe r ha
          · exact onType_sound fun r => .replicate fun _ hn h =>
              TimeSpanMethod.new_safe r (.inl hn) h
          · exact onType_sound fun r => .replicate fun _ hn h =>
              TimeSpanMethod.new_safe r (.inr hn) h
      | guid =>
          cases List.mem_singleton.mp hm
          exact onType_sound fun _ _ ha => Safe.bind (asText_safe ha) fun s _ => read_safe s .guid
      | _ => cases hm

theorem constructors_static {t : Ty} {m : Method} (ht : Source.NamedTy t)
    (hm : m ∈ constructors t) : m.isStatic := by
  have checked : ∀ p, (constructors (.predefined p)).all (·.isStatic) := by
    intro p
    cases p <;> rfl
  cases ht with
  | predefined p => exact List.all_eq_true.mp (checked p) m hm
  | nullable => cases hm

/-- The only indexer of a plain type gives a character of a text. -/
theorem indexers_sound {t owner : Ty} {m : Method} (ht : t.Plain) (ho : owner ∈ selfAndBases t)
    (hm : m ∈ declaredIndexers owner) : m.Sound texts owner := by
  obtain ⟨rfl, hm⟩ := ht.indexer ho hm
  cases List.mem_singleton.mp hm
  exact onInstance_sound fun r _ _ ha => StringMethod.charAt_safe r ha

/-! ## Tables of properties and fields -/

theorem constant_sound {owner : Ty} {name : String} {v : Value} (hs : v.isScalar)
    (hn : v.isNull = false) : (constant name v).Sound texts owner :=
  fun _ _ => .ok (.scalar hs hn rfl)

theorem computed_sound {owner ty : Ty} {name : String} {g : Getter}
    (h : ∀ receiver : Value, receiver.Conforms texts owner →
      (g.get receiver).Safe texts fun v => v.Conforms texts ty) :
    (computed name ty g).Sound texts owner :=
  fun receiver hreceiver => h receiver (hreceiver rfl)

theorem dateTimeProperties_sound : ∀ m ∈ dateTimeProperties, m.Sound texts .dateTime := by
  have part (name : String) {ty : Ty} (p : DatePart)
      (h : ∀ t, (p.get t).Conforms texts ty) :
      (dateTimeProperties.part name ty p).Sound texts .dateTime := by
    refine computed_sound fun receiver hr => ?_
    simp only [Getter.get]
    split
    · exact .error .nullReference
    · exact Safe.bind (asDateTime_safe hr) fun t _ => .ok (h t)
  simp only [dateTimeProperties, List.forall_mem_cons, List.not_mem_nil, false_implies,
    implies_true, and_true]
  refine ⟨?_, ?_, ?_, ?_, ?_, ?_, ?_, ?_, ?_, ?_, ?_, ?_, ?_⟩
  all_goals first
    | exact part _ _ fun _ => .scalar rfl rfl rfl
    | exact constant_sound rfl rfl

theorem timeSpanProperties_sound : ∀ m ∈ timeSpanProperties, m.Sound texts .timeSpan := by
  have part (name : String) {ty : Ty} (p : SpanPart)
      (h : ∀ s, (p.get s).Conforms texts ty) :
      (timeSpanProperties.part name ty p).Sound texts .timeSpan := by
    refine computed_sound fun receiver hr => ?_
    simp only [Getter.get]
    split
    · exact .error .nullReference
    · exact Safe.bind (asTimeSpan_safe hr) fun s _ => .ok (h s)
  simp only [timeSpanProperties, List.forall_mem_cons, List.not_mem_nil, false_implies,
    implies_true, and_true]
  refine ⟨?_, ?_, ?_, ?_, ?_, ?_, ?_, ?_, ?_, ?_, ?_, ?_⟩
  all_goals first
    | exact part _ _ fun _ => .scalar rfl rfl rfl
    | exact constant_sound rfl rfl

theorem length_sound {name : String} :
    (computed name .int32 .stringLength).Sound texts .string := by
  refine computed_sound fun receiver hr => ?_
  simp only [Getter.get]
  split
  · exact .error .nullReference
  · exact Safe.bind (asText_safe hr) fun s _ => .ok (.scalar rfl rfl rfl)

/-- Every property and field of a predefined type is safe. -/
theorem predefinedMembers_sound (p : Predefined) :
    ∀ m ∈ declaredMembers (.predefined p), m.Sound texts (.predefined p) := by
  cases p with
  | dateTime => exact dateTimeProperties_sound
  | timeSpan => exact timeSpanProperties_sound
  | string =>
      simp only [declaredMembers, List.forall_mem_cons]
      exact ⟨length_sound, constant_sound rfl rfl, by simp⟩
  | object | char | convert =>
      intro m hm
      cases hm
  | guid =>
      simp only [declaredMembers, List.forall_mem_cons]
      exact ⟨constant_sound rfl rfl, by simp⟩
  | boolean | integer | math =>
      simp only [declaredMembers, numberConstants, mathConstants, List.forall_mem_cons]
      exact ⟨constant_sound rfl rfl, constant_sound rfl rfl, by simp⟩
  | single | double | decimal =>
      simp only [declaredMembers, numberConstants, List.forall_mem_cons]
      exact ⟨constant_sound rfl rfl, constant_sound rfl rfl, constant_sound rfl rfl,
        constant_sound rfl rfl, constant_sound rfl rfl, by simp⟩

/-- A field of a record is there, unless the record is null. -/
theorem recordMembers_sound {r : RecordType} :
    ∀ m ∈ recordMembers 0 r.properties, m.Sound texts (.record r) := by
  intro m hm receiver hr
  obtain ⟨i, p, hp, rfl⟩ := mem_recordMembers hm
  rcases (hr rfl).fields with rfl | ⟨fields, rfl, length, h⟩
  · exact .error .nullReference
  · have inside : i < fields.length := by
      rw [length]
      exact (List.getElem?_eq_some_iff.mp hp).1
    have found : fields[0 + i]? = some fields[i] := by simp [inside]
    simp only [Member.read, found]
    exact .ok (h i _ p (List.getElem?_eq_getElem inside) hp)

/-- Every property and field of a plain type is safe. -/
theorem declaredMembers_sound {t : Ty} (ht : t.Plain) :
    ∀ m ∈ declaredMembers t, m.Sound texts t := by
  cases ht with
  | predefined p => exact predefinedMembers_sound p
  | nullable =>
      simp only [declaredMembers, List.forall_mem_cons]
      refine ⟨computed_sound fun receiver _ => .ok (.scalar rfl rfl rfl), ?_, by simp⟩
      refine computed_sound fun receiver hr => ?_
      simp only [Getter.get]
      split
      · exact .error .noValue
      · rename_i present
        rcases hr.null_or_nonNullable with ⟨rfl, -⟩ | hr
        · exact absurd rfl present
        · exact .ok hr
  | array =>
      simp only [declaredMembers, List.forall_mem_cons]
      refine ⟨computed_sound fun receiver _ => ?_, by simp⟩
      simp only [Getter.get]
      split
      · exact .error .nullReference
      · exact Safe.bind (Safe.ofOption (.invalidCast _ _) fun _ _ => trivial)
          fun _ (_ : True) => .ok (.scalar rfl rfl rfl)
  | record => exact recordMembers_sound
  | enum | sequence | lambda =>
      intro m hm
      cases hm

end Catalog
end TypedExpr
