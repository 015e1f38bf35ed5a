import TypedExpr.Proofs.DatesWithin

/-! # Dates from members

Where the dates of their operands lie in the range, those that properties and methods of predefined
types and operations on items give do so too, except for the method that reads a date from a text.
-/

namespace TypedExpr

open Value Outcome

/-! ## Properties and methods -/

theorem CharMethod.call_dateless (m : CharMethod) (args : List Value) : (m.call args).Dateless :=
  .andThen fun c => .ok (by cases m <;> rfl)

namespace StringMethod

theorem placeOf_dateless (s word : List Char) : (placeOf s word).isDateless := by
  unfold placeOf
  split <;> rfl

theorem slice_dateless (s : List Char) (start : Int) (length : Option Int) :
    (slice s start length).Dateless :=
  .ite (fun _ => .error) fun _ => .ite (fun _ => .error) fun _ => .ok rfl

theorem replaceIn_dateless (s : String) (old new : Value) : (replaceIn s old new).Dateless := by
  unfold replaceIn
  split
  · exact .ok rfl
  · refine .andThen fun old => .ite (fun _ => .error) fun _ => ?_
    exact .ite (fun _ => .andThen fun new => .ok rfl) fun _ => .andThen fun new => .ok rfl

theorem call_dateless (m : StringMethod) (receiver : Value) (args : List Value) :
    (m.call receiver args).Dateless := by
  cases m with
  | charAt => exact .andThen fun i => .ite (fun _ => .error) fun _ => .ofMap fun _ => rfl
  | contains | startsWith | endsWith => exact .andThen fun s => .andThen fun t => .ok rfl
  | indexOf =>
      refine .andThen fun s => .andThen fun v => ?_
      split
      · exact .ok (placeOf_dateless ..)
      · exact .andThen fun t => .ok (placeOf_dateless ..)
  | substring =>
      refine .andThen fun s => .andThen fun start => .ite (fun _ => .error) fun _ => ?_
      exact .andThen fun length => slice_dateless _ _ _
  | toUpper | toLower | trim => exact .andThen fun s => .ok rfl
  | replace =>
      exact .andThen fun s => .andThen fun old => .andThen fun new => replaceIn_dateless _ _ _
  | concat => exact .ok rfl
  | compare => exact .andThen fun a => .andThen fun b => .andThen fun o => .ok rfl
  | isNullOrEmpty =>
      exact .andThen fun v => .ite (fun _ => .ok rfl) fun _ => .andThen fun s => .ok rfl

end StringMethod

theorem ObjectMethod.call_dateless (m : ObjectMethod) (receiver : Value) (args : List Value) :
    (m.call receiver args).Dateless := by
  cases m with
  | toText | hashCode => exact .ok rfl
  | equals => exact .andThen fun v => .ok rfl

theorem argument_inRange {args : List Value} (h : ∀ v ∈ args, v.InRange) (i : Nat) :
    (argument args i).Yields InRange :=
  .ofOption fun _ hv => h _ (List.mem_of_getElem? hv)

namespace MathMethod

theorem absolute_dateless (v : Value) : (absolute v).Dateless := by
  unfold absolute
  split
  · exact .ite (fun _ => .ofMap fun _ => rfl) fun _ => .error
  · exact .ok rfl
  · exact .ok rfl
  · exact .ok rfl
  · exact .error

/-- The greater and the lesser of two values are among them. -/
theorem extreme_inRange {a b : Value} (ha : a.InRange) (hb : b.InRange) (keep : Ordering) :
    (extreme keep a b).Yields InRange := by
  refine .ite (fun _ => .ok ha) fun _ => .ite (fun _ => .ok hb) fun _ => .andThen fun o => .ok ?_
  split
  · exact ha
  · exact hb

theorem call_inRange (m : MathMethod) {args : List Value} (h : ∀ v ∈ args, v.InRange) :
    (m.call args).Yields InRange := by
  have double {x : Float} : (Value.double x).InRange := inRange_of_isDateless rfl
  cases m with
  | abs => exact .andThen fun v => (absolute_dateless v).inRange
  | max | min =>
      refine .bind (argument_inRange h 0) fun a ha => ?_
      exact .bind (argument_inRange h 1) fun b hb => extreme_inRange ha hb _
  | round =>
      refine .andThen fun x => .andThen fun digits => ?_
      exact .ite (fun _ => .error) fun _ => .ok double
  | floor | ceiling | truncate | sqrt => exact .andThen fun x => .ok double
  | pow => exact .andThen fun x => .andThen fun y => .ok double

end MathMethod

namespace Value

theorem ofBooleanName?_dateless {text : String} {v : Value} (h : ofBooleanName? text = some v) :
    v.isDateless := by
  unfold ofBooleanName? at h
  split at h
  · cases h
    rfl
  · split at h <;> cases h
    rfl

/-- A text is read as a date only where one is asked for. -/
theorem ofText?_dateless {text : String} {t : Ty} {v : Value} (h : ofText? text t = some v)
    (ht : t ≠ .dateTime) : v.isDateless := by
  unfold ofText? at h
  split at h
  · exact ofBooleanName?_dateless h
  · split at h <;> cases h
    rfl
  · exact absurd rfl ht
  · obtain ⟨s, -, rfl⟩ := Option.map_eq_some_iff.mp h
    rfl
  · obtain ⟨g, -, rfl⟩ := Option.map_eq_some_iff.mp h
    rfl
  · exact isDateless_of_isWritten (numberOfType?_some h).1

theorem read_dateless {t : Ty} (ht : t ≠ .dateTime) (text : String) : (read text t).Dateless :=
  .ofOption fun _ h => ofText?_dateless h ht

end Value

theorem ConvertMethod.call_dateless (m : ConvertMethod) (args : List Value) :
    (m.call args).Dateless := by
  refine .andThen fun v => ?_
  cases m with
  | toInt32 | toInt64 => exact .andThen fun n => .ofMap fun _ => rfl
  | toDouble =>
      dsimp only
      split
      · exact .ok rfl
      · exact read_dateless (by simp) _
      · exact .andThen fun x => .ok rfl
  | toDecimal =>
      dsimp only
      split
      · exact .ok rfl
      · exact read_dateless (by simp) _
      · exact .ofMap fun _ => rfl
  | toText => exact .ok rfl
  | toBoolean =>
      dsimp only
      split
      · exact .ok rfl
      · exact .ok rfl
      · exact .andThen fun s => read_dateless (by simp) _

theorem DatePart.get_inRange (p : DatePart) {t : DateTime} (h : t.inRange) :
    (p.get t).InRange := by
  cases p with
  | date => exact inRange_dateTime.mpr (DateTime.inRange_midnight h)
  | _ => exact inRange_of_isDateless rfl

/-- A date that a method makes or computes is in the range. -/
theorem DateTimeMethod.call_inRange (m : DateTimeMethod) (receiver : Value) (args : List Value) :
    (m.call receiver args).Yields InRange := by
  cases m with
  | new =>
      refine .andThen fun numbers => .ofOption fun v hv => ?_
      obtain ⟨t, ht, rfl⟩ := Option.map_eq_some_iff.mp hv
      exact inRange_dateTime.mpr (inRange_ofNumbers ht)
  | addUnits u =>
      refine .andThen fun amount => .andThen fun span => .andThen fun t => ?_
      exact BinaryOp.checkedDate_inRange _
  | addMonths | add =>
      exact .andThen fun t => .andThen fun n => BinaryOp.checkedDate_inRange _
  | addYears =>
      refine .andThen fun years => .andThen fun months => .andThen fun t => ?_
      exact BinaryOp.checkedDate_inRange _
  | subtract =>
      refine .andThen fun t => .andThen fun v => ?_
      split
      · exact .ok (inRange_of_isDateless rfl)
      · exact .andThen fun s => BinaryOp.checkedDate_inRange _
  | daysInMonth =>
      exact .andThen fun y => .andThen fun m => .ofMap fun _ => inRange_of_isDateless rfl
  | isLeapYear =>
      exact .andThen fun y => .ite (fun _ => .error) fun _ => .ok (inRange_of_isDateless rfl)

theorem SpanPart.get_dateless (p : SpanPart) (s : TimeSpan) : (p.get s).isDateless := by
  rcases p with (_ | _ | _ | _ | _) | (_ | _ | _ | _ | _) | _ <;> rfl

theorem TimeSpanMethod.call_dateless (m : TimeSpanMethod) (receiver : Value) (args : List Value) :
    (m.call receiver args).Dateless := by
  cases m with
  | new =>
      unfold call
      dsimp only
      split
      · exact .andThen fun s => .ok rfl
      · exact .andThen fun numbers => .andThen fun s => .ok rfl
  | ofUnits u => exact .andThen fun amount => .andThen fun s => .ok rfl
  | add | subtract => exact .andThen fun s => .andThen fun t => .ofMap fun _ => rfl
  | negate | duration => exact .andThen fun s => .ok rfl

/-- A method of predefined types leads out of the range only where it reads a date from a text. -/
theorem Builtin.call_inRange {b : Builtin} {result : Ty} (hr : b = .parse → result ≠ .dateTime)
    (receiver : Value) {args : List Value} (hargs : ∀ v ∈ args, v.InRange) :
    (b.call result receiver args).Yields InRange := by
  cases b with
  | object m => exact (m.call_dateless receiver args).inRange
  | string m => exact (m.call_dateless receiver args).inRange
  | char m => exact (m.call_dateless args).inRange
  | math m => exact m.call_inRange hargs
  | convert m => exact (m.call_dateless args).inRange
  | dateTime m => exact m.call_inRange receiver args
  | timeSpan m => exact (m.call_dateless receiver args).inRange
  | newGuid => exact .andThen fun s => (read_dateless (by simp) s).inRange
  | parse => exact .andThen fun s => (read_dateless (hr rfl) s).inRange

theorem Getter.get_inRange (g : Getter) {receiver : Value} (h : receiver.InRange) :
    (g.get receiver).Yields InRange := by
  have number {n : Int} : (Value.int32 n).InRange := inRange_of_isDateless rfl
  cases g with
  | hasValue => exact .ok (inRange_of_isDateless rfl)
  | nullableValue => exact .ite (fun _ => .error) fun _ => .ok h
  | stringLength => exact .ite (fun _ => .error) fun _ => .andThen fun s => .ok number
  | arrayLength => exact .ite (fun _ => .error) fun _ => .andThen fun items => .ok number
  | dateTime p =>
      have date : receiver.asDateTime.Yields fun t => t.inRange := by
        intro t ht
        cases receiver <;> cases ht
        exact inRange_dateTime.mp h
      exact .ite (fun _ => .error) fun _ => .bind date fun t ht => .ok (p.get_inRange ht)
  | timeSpan p =>
      refine .ite (fun _ => .error) fun _ => .andThen fun s => .ok ?_
      exact inRange_of_isDateless (p.get_dateless s)

theorem Value.member?_mem {members : List (String × Value)} {name : String} {v : Value}
    (h : member? members name = some v) : ∃ m ∈ members, m.2 = v := by
  obtain ⟨e, he, rfl⟩ := Option.map_eq_some_iff.mp h
  exact ⟨e, CaseMap.mem_of_mem_ofList (List.mem_of_find?_eq_some he), rfl⟩

/-- A constant or computed property, a field or a member of an object of the host. -/
theorem Member.read_inRange {m : Member} (hm : ∀ v, m.access = .constant v → v.InRange)
    {receiver : Value} (h : receiver.InRange) : (m.read receiver).Yields InRange := by
  unfold Member.read
  split
  · rename_i v access
    exact .ok (hm v access)
  · exact Getter.get_inRange _ h
  · split
    · exact .error
    · exact .ofOption fun v hv => inRange_record.mp h v (List.mem_of_getElem? hv)
    · exact .error
  · split
    · exact .error
    · refine .ofOption fun v hv => ?_
      obtain ⟨m, mem, rfl⟩ := member?_mem hv
      exact fun t ht => h t (.member mem ht)
    · exact .error

/-- The method reads a date from a text. -/
def Method.ReadsDate (m : Method) : Prop :=
  m.body = .builtin .parse ∧ m.result = some .dateTime

theorem Method.call_inRange {m : Method} (host : Host) (hh : ∀ id, m.body ≠ .host id)
    (hr : ¬ m.ReadsDate) (receiver : Value) {args : List Value} (hargs : ∀ v ∈ args, v.InRange) :
    (m.call host receiver args).Yields InRange := by
  unfold Method.call
  split
  · rename_i b body
    refine Builtin.call_inRange (fun parse result => hr ⟨parse ▸ body, ?_⟩) receiver hargs
    cases hres : m.result with
    | none => simp [hres] at result
    | some t => simpa [hres] using result
  · rename_i id body
    exact absurd body (hh id)
  · exact .error

/-! ## Operations on items -/

namespace AggregateOp

variable {s : Selection} {items : List Value}

theorem keep_inRange (h : ∀ v ∈ items, v.InRange) :
    (s.keep items).Yields fun kept => ∀ v ∈ kept, v.InRange := by
  induction items with
  | nil => exact .ok (by simp)
  | cons v vs ih =>
      obtain ⟨first, others⟩ := List.forall_mem_cons.mp h
      refine .andThen fun holds => .bind (ih others) fun rest hrest => .ok ?_
      split
      · exact List.forall_mem_cons.mpr ⟨first, hrest⟩
      · exact hrest

/-- A fold of the results keeps what each step keeps. -/
theorem foldResults_yields {α : Type} {P : α → Prop} {f : α → Value → Outcome α}
    (hs : ∀ v ∈ items, (s.select v).Yields InRange)
    (hf : ∀ a v, P a → v.InRange → (f a v).Yields P) {start : α} (h : P start) :
    (s.foldResults f start items).Yields P := by
  induction items generalizing start with
  | nil => exact .ok h
  | cons v vs ih =>
      obtain ⟨first, others⟩ := List.forall_mem_cons.mp hs
      refine .bind first fun result hresult => .ite (fun _ => ih others h) fun _ => ?_
      exact .bind (hf start result h hresult) fun a ha => ih others ha

theorem extremeOf_inRange (hs : ∀ v ∈ items, (s.select v).Yields InRange) (side : Ordering) :
    (extremeOf s side items).Yields InRange := by
  refine .bind (P := fun best => ∀ v, best = some v → v.InRange) ?_ fun best hbest => ?_
  · refine foldResults_yields hs (fun best v hbest hv => .ok ?_) nofun
    unfold moreExtreme
    split
    · split
      · rintro _ ⟨⟩
        exact hv
      · exact hbest
    · rintro _ ⟨⟩
      exact hv
  · cases best with
    | some v => exact .ok (hbest v rfl)
    | none => exact .ite (fun _ => .ok (inRange_of_isDateless rfl)) fun _ => .error

theorem sumOf_dateless (a b : Value) : (sumOf a b).Dateless := by
  unfold sumOf
  split
  · exact .ofMap fun _ => rfl
  · exact .ofMap fun _ => rfl
  · exact .ok rfl
  · exact .ok rfl
  · exact .ofMap fun _ => rfl
  · exact .error

theorem quotientOf_dateless (total : Value) (n : Nat) : (quotientOf total n).Dateless := by
  unfold quotientOf
  split
  · exact .ok rfl
  · exact .andThen fun n => .ofMap fun _ => rfl
  · exact .andThen fun t => .ok rfl

theorem averageOf_dateless (s : Selection) (items : List Value) (resultTy : Ty) :
    (averageOf s items resultTy).Dateless := by
  refine .andThen fun both => .ite (fun _ => ?_) fun _ => quotientOf_dateless _ _
  exact .ite (fun _ => .ok rfl) fun _ => .error

theorem defaultOf_inRange (t : Ty) : (defaultOf t).InRange := by
  unfold defaultOf
  split
  all_goals first
    | exact inRange_of_isDateless rfl
    | exact inRange_dateTime.mpr (DateTime.inRange_minValue)

/-- An operation gives no dates but those of the items and of the results for them. -/
theorem run_inRange (op : AggregateOp) {s : Option Selection}
    (hs : ∀ f, s = some f → ∀ v ∈ items, (f.select v).Yields InRange)
    (h : ∀ v ∈ items, v.InRange) (t : Ty) : (op.run s items t).Yields InRange := by
  cases s with
  | none =>
      cases op with
      | any => exact .ok (inRange_of_isDateless rfl)
      | count => exact .ofMap fun _ => inRange_of_isDateless rfl
      | _ => exact .error
  | some s =>
      have results := hs s rfl
      cases op with
      | filter => exact .bind (keep_inRange h) fun kept hkept => .ok (inRange_sequence.mpr hkept)
      | any | all => exact .andThen fun b => .ok (inRange_of_isDateless rfl)
      | count => exact .andThen fun kept => .ofMap fun _ => inRange_of_isDateless rfl
      | min | max => exact extremeOf_inRange results _
      | sum =>
          refine foldResults_yields results (fun a v _ _ => ?_) (defaultOf_inRange _)
          exact (sumOf_dateless a v).inRange
      | average => exact (averageOf_dateless s items t).inRange

end AggregateOp

theorem Value.itemsOf_inRange {source : Value} (h : source.InRange) :
    source.itemsOf.Yields fun items => ∀ v ∈ items, v.InRange :=
  .ite (fun _ => .error) fun _ => .ofOption fun _ hi => h.items hi

theorem Value.itemAt_inRange {target : Value} (h : target.InRange) (index : Value) :
    (target.itemAt index).Yields InRange := by
  have items : (Outcome.ofOption (.cast target (.array .object)) target.items?).Yields
      fun items => ∀ v ∈ items, v.InRange := .ofOption fun _ hi => h.items hi
  refine .ite (fun _ => .error) fun _ => .bind items fun items hitems => ?_
  refine .andThen fun i => .ite (fun _ => .error) fun _ => .ofOption fun v hv => ?_
  exact hitems v (List.mem_of_getElem? hv)

end TypedExpr
