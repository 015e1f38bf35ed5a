import TypedExpr.Eval.Arithmetic

/-!
# Operations on sequences

An operation goes through the items in order and stops at the first error. Predicates hold only
where they are true, not where they are null; a least, greatest, sum or average leaves out nulls.
Sums of integers and decimals are checked.
-/

namespace TypedExpr

def Value.truth? : Value → Outcome (Option Bool)
  | boolean b => .ok (some b)
  | null => .ok none
  | v => .error (.cast v .boolean)

namespace AggregateOp

structure Selection where
  select : Value → Outcome Value
  ty : Ty

namespace Selection

def holds (s : Selection) (item : Value) : Outcome Bool := do
  let answer ← (← s.select item).truth?
  return answer == some true

def keep (s : Selection) : List Value → Outcome (List Value)
  | [] => .ok []
  | v :: vs => do
    let holds ← s.holds v
    let rest ← s.keep vs
    return if holds then v :: rest else rest

/-- Some item answers the predicate with `answer`. The items after it are not looked at. -/
def meets (s : Selection) (answer : Bool) : List Value → Outcome Bool
  | [] => .ok false
  | v :: vs => do
    if (← s.holds v) == answer then return true else s.meets answer vs

/-- Combine the results that are not null, one after the other. -/
def foldResults {α : Type} (s : Selection) (f : α → Value → Outcome α) (start : α) :
    List Value → Outcome α
  | [] => .ok start
  | v :: vs => do
    let result ← s.select v
    let next ← if result.isNull then pure start else f start result
    s.foldResults f next vs

end Selection

def countOf (n : Nat) : Outcome Value :=
  Outcome.ofOption .overflow ((IntKind.int32.ofInt? n).map (.integer .int32))

/-- The earlier result, unless the later one is on the side `side` of it. -/
def moreExtreme (side : Ordering) (best : Option Value) (v : Value) : Option Value :=
  match best with
  | some b => if v.compare? b = some side then some v else some b
  | none => some v

/-- A least or greatest result. Without any it is null, if the type has null. -/
def extremeOf (s : Selection) (side : Ordering) (items : List Value) : Outcome Value := do
  match ← s.foldResults (fun best v => pure (moreExtreme side best v)) none items with
  | some v => return v
  | none => if !s.ty.isValueType || s.ty.isNullable then return .null else throw .emptySequence

/-- A sum of two numbers of one kind. -/
def sumOf : Value → Value → Outcome Value
  | .integer .int32 a, .integer .int32 b => sumOfWords .int32 a.val b.val
  | .integer .int64 a, .integer .int64 b => sumOfWords .int64 a.val b.val
  | .single a, .single b => .ok (.single (a + b))
  | .double a, .double b => .ok (.double (a + b))
  | .decimal a, .decimal b => Outcome.ofOption .overflow ((a.add? b).map .decimal)
  | a, b => .error (.unsupported ("sum of " ++ a.typeOf.toText ++ " and " ++ b.typeOf.toText))
where
  sumOfWords (k : IntKind) (a b : Int) : Outcome Value :=
    Outcome.ofOption .overflow ((k.ofInt? (a + b)).map (.integer k))

def wideSumOf (total v : Value) : Outcome Value := do
  let a ← Outcome.ofOption .overflow total.toInt?
  let b ← Outcome.ofOption (.cast v .int64) v.toInt?
  Outcome.ofOption .overflow ((IntKind.int64.ofInt? (a + b)).map (.integer .int64))

/-- The kinds of integer that are added up in 64 bits for an average. -/
def averagesWide (t : Ty) : Bool := t = .int32 || t = .int64

/-- A total divided by a number of results. -/
def quotientOf (total : Value) (n : Nat) : Outcome Value :=
  match total with
  | .single t => .ok (.single (t / Binary.float32OfInt n))
  | .decimal t => do
    let n ← Outcome.ofOption .overflow (Decimal.ofInt? n)
    Outcome.ofOption .overflow ((t.div? n).map .decimal)
  | v => do
    let t ← Outcome.ofOption .overflow v.toFloat?
    return .double (t / Binary.floatOfInt n)

/-- The average of the results. Without any it is null, if the type of the average has null. -/
def averageOf (s : Selection) (items : List Value) (resultTy : Ty) : Outcome Value := do
  let kind := s.ty.nonNullable
  let add (total v : Value) : Outcome Value :=
    if averagesWide kind then wideSumOf total v else sumOf total v
  let (total, n) ← s.foldResults
    (fun (total, n) v => do return (← add total v, n + 1)) (Value.defaultOf kind, 0) items
  if n = 0 then if resultTy.isNullable then return .null else throw .emptySequence
  else quotientOf total n

def runWith (op : AggregateOp) (s : Selection) (items : List Value) (resultTy : Ty) :
    Outcome Value :=
  match op with
  | filter => do return .sequence (← s.keep items)
  | any => do return .boolean (← s.meets true items)
  | all => do return .boolean !(← s.meets false items)
  | count => do countOf (← s.keep items).length
  | min => extremeOf s .lt items
  | max => extremeOf s .gt items
  | sum => s.foldResults sumOf (Value.defaultOf s.ty.nonNullable) items
  | average => averageOf s items resultTy

/-- Carry out an operation. Only `Any` and `Count` can do without a selector. -/
def run (op : AggregateOp) (s : Option Selection) (items : List Value) (resultTy : Ty) :
    Outcome Value :=
  match s, op with
  | some s, op => op.runWith s items resultTy
  | none, any => .ok (.boolean !items.isEmpty)
  | none, count => countOf items.length
  | none, op => .error (.unsupported (op.name ++ " without a selector"))

end AggregateOp
end TypedExpr
