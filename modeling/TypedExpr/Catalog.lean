import TypedExpr.Value

/-!
# Members of types

What a type declares, and what is found on it when its base types are searched too, from the
type itself up to `Object`. Methods and indexers are found layer by layer: the first layer in
which an overload applies is the one that counts.
-/

namespace TypedExpr

/-- How a property is read. -/
inductive Access where
  | computed (g : Getter)
  | constant (v : Value)
  | field (index : Nat)
  /-- The member of an object of the host with the property's name. -/
  | hosted

/-- A property or field as an expression sees it. -/
structure Member where
  name : String
  ty : Ty
  isStatic : Bool
  isField : Bool
  access : Access

/-- The methods of one name that one type declares. -/
structure Layer where
  owner : Ty
  methods : List Method

namespace Catalog

/-- Methods of a predefined type can be called; those of other types cannot. -/
def isPredefined : Ty → Bool
  | .predefined _ => true
  | _ => false

def computed (name : String) (ty : Ty) (g : Getter) : Member :=
  ⟨name, ty, false, false, .computed g⟩

def constant (name : String) (v : Value) : Member := ⟨name, v.typeOf, true, true, .constant v⟩

def onInstance (name : String) (params : List Ty) (result : Ty) (b : Builtin) : Method :=
  .ofBuiltin name params result false b

def onType (name : String) (params : List Ty) (result : Ty) (b : Builtin) : Method :=
  .ofBuiltin name params result true b

/-- One method with as many parameters of each type as `arity` says, and a result of that type. -/
def overloads (name : String) (arity : Nat) (types : List Ty) (b : Builtin) : List Method :=
  types.map fun t => onType name (List.replicate arity t) t b

def objectMethods : List Method :=
  [onInstance "ToString" [] .string (.object .toText),
    onInstance "Equals" [.object] .boolean (.object .equals),
    onInstance "GetHashCode" [] .int32 (.object .hashCode)]

def stringMethods : List Method :=
  [onInstance "Contains" [.string] .boolean (.string .contains),
    onInstance "StartsWith" [.string] .boolean (.string .startsWith),
    onInstance "EndsWith" [.string] .boolean (.string .endsWith),
    onInstance "IndexOf" [.string] .int32 (.string .indexOf),
    onInstance "IndexOf" [.char] .int32 (.string .indexOf),
    onInstance "Substring" [.int32] .string (.string .substring),
    onInstance "Substring" [.int32, .int32] .string (.string .substring),
    onInstance "ToUpper" [] .string (.string .toUpper),
    onInstance "ToLower" [] .string (.string .toLower),
    onInstance "Trim" [] .string (.string .trim),
    onInstance "Replace" [.string, .string] .string (.string .replace),
    onInstance "Replace" [.char, .char] .string (.string .replace),
    onType "Concat" [.object, .object] .string (.string .concat),
    onType "Concat" [.string, .string] .string (.string .concat),
    onType "Compare" [.string, .string] .int32 (.string .compare),
    onType "IsNullOrEmpty" [.string] .boolean (.string .isNullOrEmpty)]

def charMethods : List Method :=
  [onType "IsDigit" [.char] .boolean (.char .isDigit),
    onType "IsLetter" [.char] .boolean (.char .isLetter),
    onType "IsWhiteSpace" [.char] .boolean (.char .isWhiteSpace),
    onType "IsUpper" [.char] .boolean (.char .isUpper),
    onType "IsLower" [.char] .boolean (.char .isLower),
    onType "ToUpper" [.char] .char (.char .toUpper),
    onType "ToLower" [.char] .char (.char .toLower),
    onType "Parse" [.string] .char .parse]

def mathMethods : List Method :=
  overloads "Abs" 1 [.sbyte, .int16, .int32, .int64, .single, .double, .decimal] (.math .abs) ++
    overloads "Max" 2 ordered (.math .max) ++ overloads "Min" 2 ordered (.math .min) ++
    [onType "Round" [.double] .double (.math .round),
      onType "Round" [.double, .int32] .double (.math .round),
      onType "Floor" [.double] .double (.math .floor),
      onType "Ceiling" [.double] .double (.math .ceiling),
      onType "Truncate" [.double] .double (.math .truncate),
      onType "Sqrt" [.double] .double (.math .sqrt),
      onType "Pow" [.double, .double] .double (.math .pow)]
where
  ordered : List Ty :=
    [.byte, .sbyte, .int16, .uint16, .int32, .uint32, .int64, .uint64, .single, .double, .decimal]

def convertMethods : List Method :=
  conversion "ToInt32" .int32 .toInt32 [.int32, .int64, .double, .decimal, .boolean, .string] ++
    conversion "ToInt64" .int64 .toInt64 [.int32, .int64, .double, .decimal, .string] ++
    conversion "ToDouble" .double .toDouble [.int32, .int64, .double, .string, .decimal] ++
    conversion "ToDecimal" .decimal .toDecimal [.int32, .int64, .double, .decimal, .string] ++
    conversion "ToString" .string .toText [.object] ++
    conversion "ToBoolean" .boolean .toBoolean [.string, .int32]
where
  conversion (name : String) (result : Ty) (m : ConvertMethod) (sources : List Ty) : List Method :=
    sources.map fun t => onType name [t] result (.convert m)

def dateTimeMethods : List Method :=
  [addition "AddDays" .day, addition "AddHours" .hour, addition "AddMinutes" .minute,
    addition "AddSeconds" .second, addition "AddMilliseconds" .millisecond,
    onInstance "AddMonths" [.int32] .dateTime (.dateTime .addMonths),
    onInstance "AddYears" [.int32] .dateTime (.dateTime .addYears),
    onInstance "Add" [.timeSpan] .dateTime (.dateTime .add),
    onInstance "Subtract" [.dateTime] .timeSpan (.dateTime .subtract),
    onInstance "Subtract" [.timeSpan] .dateTime (.dateTime .subtract),
    onType "DaysInMonth" [.int32, .int32] .int32 (.dateTime .daysInMonth),
    onType "IsLeapYear" [.int32] .boolean (.dateTime .isLeapYear),
    onType "Parse" [.string] .dateTime .parse]
where
  addition (name : String) (u : TimeUnit) : Method :=
    onInstance name [.double] .dateTime (.dateTime (.addUnits u))

def timeSpanMethods : List Method :=
  [ofUnits "FromDays" .day, ofUnits "FromHours" .hour, ofUnits "FromMinutes" .minute,
    ofUnits "FromSeconds" .second, ofUnits "FromMilliseconds" .millisecond,
    onType "Parse" [.string] .timeSpan .parse,
    onInstance "Add" [.timeSpan] .timeSpan (.timeSpan .add),
    onInstance "Subtract" [.timeSpan] .timeSpan (.timeSpan .subtract),
    onInstance "Negate" [] .timeSpan (.timeSpan .negate),
    onInstance "Duration" [] .timeSpan (.timeSpan .duration)]
where
  ofUnits (name : String) (u : TimeUnit) : Method :=
    onType name [.double] .timeSpan (.timeSpan (.ofUnits u))

def declaredMethods : Ty → List Method
  | .object => objectMethods
  | .string => stringMethods
  | .char => charMethods
  | .math => mathMethods
  | .convert => convertMethods
  | .dateTime => dateTimeMethods
  | .timeSpan => timeSpanMethods
  | .predefined p => [onType "Parse" [.string] (.predefined p) .parse]
  | .cls c => c.methods
  | _ => []

/-- The least and the greatest value of a type of numbers, and further constants. -/
def numberConstants : Ty → List Member
  | .integer k =>
    [constant "MinValue" (.integer k (k.wrap k.low)),
      constant "MaxValue" (.integer k (k.wrap k.high))]
  | .single =>
    [constant "MinValue" (.single (Binary.toFloat32 0xff7fffff)),
      constant "MaxValue" (.single (Binary.toFloat32 0x7f7fffff)),
      constant "NaN" (.single (Binary.toFloat32 0x7fc00000)),
      constant "PositiveInfinity" (.single (Binary.toFloat32 0x7f800000)),
      constant "NegativeInfinity" (.single (Binary.toFloat32 0xff800000))]
  | .double =>
    [constant "MinValue" (.double (Binary.toFloat 0xffefffffffffffff)),
      constant "MaxValue" (.double (Binary.toFloat 0x7fefffffffffffff)),
      constant "NaN" (.double (Binary.toFloat 0x7ff8000000000000)),
      constant "PositiveInfinity" (.double (Binary.toFloat 0x7ff0000000000000)),
      constant "NegativeInfinity" (.double (Binary.toFloat 0xfff0000000000000))]
  | .decimal =>
    [constant "MinValue" (.decimal Decimal.minValue),
      constant "MaxValue" (.decimal Decimal.maxValue),
      constant "Zero" (.decimal Decimal.zero),
      constant "One" (.decimal Decimal.one),
      constant "MinusOne" (.decimal Decimal.minusOne)]
  | _ => []

def dateTimeProperties : List Member :=
  [part "Year" .int32 .year, part "Month" .int32 .month, part "Day" .int32 .day,
    part "Hour" .int32 .hour, part "Minute" .int32 .minute, part "Second" .int32 .second,
    part "Millisecond" .int32 .millisecond, part "DayOfYear" .int32 .dayOfYear,
    part "Date" .dateTime .date, part "TimeOfDay" .timeSpan .timeOfDay,
    part "Ticks" .int64 .ticks,
    constant "MinValue" (.dateTime DateTime.minValue),
    constant "MaxValue" (.dateTime DateTime.maxValue)]
where
  part (name : String) (ty : Ty) (p : DatePart) : Member := computed name ty (.dateTime p)

def timeSpanProperties : List Member :=
  [part "Days" .int32 (.part .day), part "Hours" .int32 (.part .hour),
    part "Minutes" .int32 (.part .minute), part "Seconds" .int32 (.part .second),
    part "Milliseconds" .int32 (.part .millisecond),
    part "TotalDays" .double (.total .day), part "TotalHours" .double (.total .hour),
    part "TotalMinutes" .double (.total .minute), part "TotalSeconds" .double (.total .second),
    part "TotalMilliseconds" .double (.total .millisecond),
    part "Ticks" .int64 .ticks,
    constant "Zero" (.timeSpan TimeSpan.zero)]
where
  part (name : String) (ty : Ty) (p : SpanPart) : Member := computed name ty (.timeSpan p)

def recordMembers (index : Nat) : List Property → List Member
  | [] => []
  | p :: ps => ⟨p.name, p.ty, false, false, .field index⟩ :: recordMembers (index + 1) ps

def classMembers (c : ClassType) : List Member :=
  c.properties.map (fun p => ⟨p.name, p.ty, false, false, .hosted⟩) ++
    c.fields.map (fun p => ⟨p.name, p.ty, false, true, .hosted⟩)

/-- The number whose natural logarithm is one, and the ratio of a circle to its diameter. -/
def mathConstants : List Member :=
  [constant "PI" (.double (Binary.toFloat 0x400921fb54442d18)),
    constant "E" (.double (Binary.toFloat 0x4005bf0a8b145769))]

def declaredMembers : Ty → List Member
  | .string =>
    [computed "Length" .int32 .stringLength, constant "Empty" (.string "")]
  | .boolean =>
    [constant "TrueString" (.string "True"), constant "FalseString" (.string "False")]
  | .math => mathConstants
  | .dateTime => dateTimeProperties
  | .timeSpan => timeSpanProperties
  | .guid => [constant "Empty" (.guid Guid.empty)]
  | .nullable inner =>
    [computed "HasValue" .boolean .hasValue, computed "Value" inner .nullableValue]
  | .array _ => [computed "Length" .int32 .arrayLength]
  | .record r => recordMembers 0 r.properties
  | .cls c => classMembers c
  | t => numberConstants t

def dateTimeConstructors : List Method :=
  [onType "DateTime" (List.replicate 3 .int32) .dateTime (.dateTime .new),
    onType "DateTime" (List.replicate 6 .int32) .dateTime (.dateTime .new)]

def timeSpanConstructors : List Method :=
  [onType "TimeSpan" [.int64] .timeSpan (.timeSpan .new),
    onType "TimeSpan" (List.replicate 3 .int32) .timeSpan (.timeSpan .new),
    onType "TimeSpan" (List.replicate 4 .int32) .timeSpan (.timeSpan .new)]

def constructors : Ty → List Method
  | .dateTime => dateTimeConstructors
  | .timeSpan => timeSpanConstructors
  | .guid => [onType "Guid" [.string] .guid .newGuid]
  | .cls c => c.constructors.map fun m => { m with result := some (.cls c) }
  | _ => []

def declaredIndexers : Ty → List Method
  | .string => [onInstance "get_Chars" [.int32] .char (.string .charAt)]
  | .cls c => c.indexers
  | _ => []

def baseChain : ClassType → List Ty
  | ⟨i, n, base, is, f, e, ps, fs, ms, cs, xs⟩ =>
    .cls ⟨i, n, base, is, f, e, ps, fs, ms, cs, xs⟩ ::
      match base with
      | none => []
      | some b => baseChain b

mutual

/-- Go through an interface and those that it extends, depth first, leaving out what has been
seen. -/
def visitInterface : ClassType → (seen : List Ty) → List Ty
  | ⟨i, n, b, interfaces, f, e, ps, fs, ms, cs, xs⟩, seen =>
    let self : Ty := .cls ⟨i, n, b, interfaces, f, e, ps, fs, ms, cs, xs⟩
    if self ∈ seen then seen else visitInterfaces interfaces (seen ++ [self])

def visitInterfaces : List ClassType → (seen : List Ty) → List Ty
  | [], seen => seen
  | c :: cs, seen => visitInterfaces cs (visitInterface c seen)

end

/-- A type and the types above it, ending with `Object`. An interface has those that it extends
above it, a class its bases. -/
def selfAndBases : Ty → List Ty
  | .object => [.object]
  | .cls c => (if c.isInterface then visitInterface c [] else baseChain c) ++ [.object]
  | t => [t, .object]

/-- Some spelling of a name. -/
def named (name : String) (memberName : String) : Bool := Text.sameIgnoringCase memberName name

/-- The property or field of a name in any case. -/
def property? (t : Ty) (name : String) (isStatic : Bool) : Option Member :=
  (selfAndBases t).findSome? fun owner =>
    (declaredMembers owner).find? fun m => m.isStatic == isStatic && named name m.name

/-- The types above `t` at which some methods are found, with those methods. -/
def layers (t : Ty) (found : Ty → List Method) : List Layer :=
  ((selfAndBases t).map fun owner => (⟨owner, found owner⟩ : Layer)).filter
    fun l => !l.methods.isEmpty

/-- The methods of a name in any case. -/
def methods (t : Ty) (name : String) (isStatic : Bool) : List Layer :=
  layers t fun owner =>
    (declaredMethods owner).filter fun m => m.isStatic == isStatic && named name m.name

def indexers (t : Ty) : List Layer := layers t declaredIndexers

end Catalog
end TypedExpr
