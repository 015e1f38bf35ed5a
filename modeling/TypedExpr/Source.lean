import TypedExpr.Expr.Fresh
import TypedExpr.Source.Grammar

/-!
# Texts as expressions

The outermost readers: a text, the parameters it can use, and what the host makes visible, to a
typed expression, a function or an ordering. Externals have the names `@0`, `@1` and so on by their
places; a table of names in the last place has no number. Reading can make record types, also
when it fails.
-/

namespace TypedExpr

namespace External

mutual

/-- A number above those of all parameters in an external. -/
def bound : External → Nat
  | value _ => 0
  | expr e => e.bound
  | symbols table => tableBound table

def tableBound : List (String × External) → Nat
  | [] => 0
  | (_, x) :: rest => max x.bound (tableBound rest)

end

/-- A table in which a later entry of a name takes the place of an earlier one. -/
def table (entries : List (String × External)) : External :=
  symbols (entries.foldl put [])
where
  put (entries : List (String × External)) (e : String × External) : List (String × External) :=
    if entries.any (·.1 == e.1) then entries.map fun d => if d.1 == e.1 then e else d
    else entries ++ [e]

end External

namespace Source

/-- How deep expressions may be nested unless the caller says otherwise. -/
def defaultMaxDepth : Nat := 100

/-- Put something under a name that is not taken in any case. -/
def Env.define (env : Env) (name : String) (x : External) : Except Diagnostic Env :=
  match env.symbols.insert? name x with
  | some symbols => .ok { env with symbols }
  | none => .error ⟨.duplicateIdentifier name, 0⟩

def Env.defineParams (env : Env) : List Parameter → Except Diagnostic Env
  | [] => .ok env
  | p :: ps => do
    let env ← if p.name.isEmpty then pure env else env.define p.name (.expr (.parameter p))
    env.defineParams ps

/-- Put the externals under their numbers, from `i` on. -/
def Env.defineExternals (env : Env) (i : Nat) : List External → Except Diagnostic Env
  | [] => .ok env
  | [.symbols externals] => .ok { env with externals }
  | x :: xs => do (← env.define ("@" ++ toString i) x).defineExternals (i + 1) xs

/-- The receiver of bare members: a single parameter without a name. -/
def receiverOf : List Parameter → Option Parameter
  | [p] => if p.name.isEmpty then some p else none
  | _ => none

def Env.ofHost (params : List Parameter) (values : List External) (maxDepth : Nat) :
    Except Diagnostic Env := do
  let nextId := max (Parameter.bound params) (External.tableBound (values.map ("", ·)))
  let env : Env := ⟨CaseMap.empty, [], receiverOf params, nextId, maxDepth⟩
  (← env.defineParams params).defineExternals 0 values

/-- What a text is read under. -/
structure Context where
  params : List Parameter
  values : List External
  maxDepth : Nat
  cache : RecordCache

def read {α : Type} (whole : Env → Reader α) (c : Context) (text : String) :
    Except Diagnostic α × RecordCache :=
  match Env.ofHost c.params c.values c.maxDepth with
  | .error e => (.error e, c.cache)
  | .ok env =>
    let start : State := ⟨Token.atEnd 0, Token.scan text, c.cache⟩
    match (do Reader.next; whole env : Reader α) start with
    | .ok a s => (.ok a, s.cache)
    | .error e s => (.error e, s.cache)

/-- Read an expression, in the type that is asked for if one is. -/
def readExpr (c : Context) (resultTy : Option Ty) (text : String) :
    Except Diagnostic Expr × RecordCache :=
  read (wholeExpression resultTy) c text

def readLambda (c : Context) (resultTy : Option Ty) (text : String) :
    Except Diagnostic Lambda × RecordCache :=
  let (result, cache) := readExpr c resultTy text
  (result.map fun body => ⟨c.params, body⟩, cache)

def readOrdering (c : Context) (text : String) :
    Except Diagnostic (List OrderingKey) × RecordCache :=
  read wholeOrdering c text

end Source
end TypedExpr
