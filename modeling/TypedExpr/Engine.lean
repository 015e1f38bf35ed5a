import TypedExpr.Eval
import TypedExpr.Handlers
import TypedExpr.Options

/-!
# The engine

Options, handlers and one cache of record types that everything shares. Each operation gives its
result and the engine after it; the record types it has made stay, whatever the result.
-/

namespace TypedExpr

/-- Why an operation of the engine failed. -/
inductive EngineError where
  | parse (cause : Diagnostic)
  | materialize (cause : MaterializeError)
  | eval (cause : EvalError)
  | dispatch (cause : DispatchError)
  /-- The text is not a document. -/
  | json

def EngineError.message : EngineError → String
  | parse cause => cause.problem.message
  | materialize cause => cause.message
  | eval cause => cause.message
  | dispatch cause => cause.message
  | json => "Invalid JSON"

structure Engine where
  options : Options
  cache : RecordCache
  handlers : Handlers

namespace Engine

/-- An engine that has done nothing yet. -/
def ofOptions (options : Options) : Engine :=
  ⟨options, RecordCache.empty options.maxRecordTypes, Handlers.empty⟩

/-- A result with the engine that has the record types made on the way. -/
def after {α : Type} (e : Engine) (result : α × RecordCache) : α × Engine :=
  (result.1, { e with cache := result.2 })

/-- What a text over these parameters and externals is read under. -/
def context (e : Engine) (params : List Parameter) (values : List External) : Source.Context :=
  ⟨params, values, e.options.maxNestingDepth, e.cache⟩

def readExpr (e : Engine) (params : List Parameter) (values : List External)
    (resultTy : Option Ty) (text : String) : Except Diagnostic Expr × Engine :=
  e.after (Source.readExpr (e.context params values) resultTy text)

def readLambda (e : Engine) (params : List Parameter) (values : List External)
    (resultTy : Option Ty) (text : String) : Except Diagnostic Lambda × Engine :=
  e.after (Source.readLambda (e.context params values) resultTy text)

def readOrdering (e : Engine) (params : List Parameter) (text : String) :
    Except Diagnostic (List OrderingKey) × Engine :=
  e.after (Source.readOrdering (e.context params []) text)

def materialize (e : Engine) (j : Json) : Except MaterializeError Value × Engine :=
  e.after ((j.materialize e.options.coerceArrayElements).runWith e.cache)

def materializeRecord (e : Engine) (j : Json) : Except MaterializeError Record × Engine :=
  e.after ((j.materializeRecord e.options.coerceArrayElements).runWith e.cache)

def materializeText (e : Engine) (text : String) : Except EngineError Value × Engine :=
  match Json.read? text with
  | none => (.error .json, e)
  | some j =>
    let (result, e) := e.materialize j
    (result.mapError .materialize, e)

/-- The values of documents, each for itself. -/
def materializeAll (e : Engine) : List Json → List (Except MaterializeError Value) × Engine
  | [] => ([], e)
  | j :: js =>
    let (result, e) := e.materialize j
    let (results, e) := e.materializeAll js
    (result :: results, e)

/-- A receiver of the type that no parameter in the externals is. -/
def receiver (ty : Ty) (values : List External) : Parameter :=
  ⟨External.tableBound (values.map ("", ·)), "", ty⟩

/-- The value of a text over a receiver that has the type of `value`. -/
def evaluateOver (e : Engine) (host : Host) (text : String) (value : Value)
    (values : List External) : Except EngineError Value × Engine :=
  let (result, e) := e.readLambda [receiver value.typeOf values] values none text
  match result with
  | .error d => (.error (.parse d), e)
  | .ok l => ((l.evaluate host [value]).mapError .eval, e)

/-- The items in the order of a text over a receiver of type `ty`. -/
def orderBy (e : Engine) (host : Host) (ty : Ty) (text : String) (items : List Value) :
    Except EngineError (List Value) × Engine :=
  let p := receiver ty []
  let (result, e) := e.readOrdering [p] text
  match result with
  | .error d => (.error (.parse d), e)
  | .ok keys => ((OrderingKey.sort keys host p items).mapError .eval, e)

def register (e : Engine) (name : String) (h : Handler) : Except DispatchError Engine := do
  return { e with handlers := ← e.handlers.register name h }

def dispatch (e : Engine) (request : Json) : Except DispatchError Json × Engine :=
  e.after (e.handlers.dispatch e.options.coerceArrayElements request e.cache)

def dispatchText (e : Engine) (text : String) : Except EngineError Json × Engine :=
  match Json.read? text with
  | none => (.error .json, e)
  | some j =>
    let (result, e) := e.dispatch j
    (result.mapError .dispatch, e)

end Engine
end TypedExpr
