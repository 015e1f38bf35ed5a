import TypedExpr.CommandLine.Help
import TypedExpr.Engine
import TypedExpr.Expr.Text

/-!
# The command line

What the program prints for its arguments and the files that they name, and the code with which
it ends: zero for success, one for a reported error, two for a command line that makes no sense.
-/

namespace TypedExpr.CommandLine

/-- The end of the program. -/
structure Report where
  exitCode : Nat
  output : String
  message : String
  deriving DecidableEq, Repr

abbrev Files := String → Option String

/-- A result, or the message of a reported error. -/
abbrev Attempt (α : Type) := Except String α

def expect {α : Type} (message : String) : Option α → Attempt α
  | some a => .ok a
  | none => .error message

def orMessage {ε α : Type} (message : ε → String) (result : Except ε α) : Attempt α :=
  result.mapError message

def line (text : String) : String := text ++ "\n"

/-- The report of a diagnostic: its phase, wording, code and place. -/
def diagnosticText (d : Diagnostic) : String :=
  d.problem.phase.title ++ ": " ++ d.problem.message ++ " (error " ++ toString d.problem.code ++
    " at character " ++ toString d.offset ++ ")"

def engineText : EngineError → String
  | .parse d => diagnosticText d
  | e => e.message

def readJson (files : Files) (path : String) : Attempt Json := do
  let text ← expect ("cannot read " ++ path) (files path)
  expect (path ++ " is not valid JSON") (Json.read? text)

def typeNamed (name : String) : Attempt Ty :=
  expect ("unknown type '" ++ name ++ "'") (Ty.ofText? (Text.trim name))

/-- The name and the type of a parameter, with a colon between them. -/
def namedParameter (id : Nat) (arg : String) : Attempt Parameter := do
  let (name, ty) ← expect ("parameter '" ++ arg ++ "' is not of the form NAME:TYPE")
    (Text.splitFirst? ':' arg.toList)
  let name := Text.trim (String.ofList name)
  if name.isEmpty then throw ("parameter '" ++ arg ++ "' has no name")
  return ⟨id, name, ← typeNamed (String.ofList ty)⟩

/-- The parameters of an expression: the unnamed one, if its type is given, and the named ones. -/
def parameters (it : Option String) (params : List String) : Attempt (List Parameter) := do
  let receiver ← match it with
    | none => pure []
    | some name => do pure [(⟨0, "", ← typeNamed name⟩ : Parameter)]
  let named ← params.zipIdx.mapM fun (arg, i) => namedParameter (i + 1) arg
  return receiver ++ named

def Reading.parameters (r : Reading) : Attempt (List Parameter) :=
  CommandLine.parameters (r.after.value? .it) (r.after.values .param)

/-- The options of a command line: those of a file, and what wins over them. -/
def Reading.options (r : Reading) (files : Files) : Attempt Options := do
  let options ← match r.setting? .config with
    | none => pure Options.default
    | some path => do
      let text ← expect ("Cannot read options file '" ++ path ++ "'") (files path)
      expect "Invalid options" (Options.ofText? text)
  return options.withOverrides r.overrides

/-- No expression calls a function of a host here. -/
def noHost : Host := fun _ _ _ => .error "there is no host"

def runParse (e : Engine) (text : String) (params : List Parameter) (result : Option String) :
    Attempt String := do
  let resultTy ← result.mapM typeNamed
  let expr ← orMessage diagnosticText (e.readExpr params [] resultTy text).1
  return line expr.toText ++ line ("type: " ++ expr.ty.toText)

def keyLine (k : OrderingKey) : String :=
  line (k.selector.toText ++ (if k.ascending then " asc : " else " desc : ") ++
    k.selector.ty.toText)

def runOrder (e : Engine) (text : String) (params : List Parameter) : Attempt String := do
  let keys ← orMessage diagnosticText (e.readOrdering params text).1
  return Text.joinWith "" (keys.map keyLine)

/-- Print the items of a file in order. The first item gives their type. -/
def runSort (e : Engine) (text : String) (files : Files) (path : String) : Attempt String := do
  let rows ← expect (path ++ " does not hold a JSON array") (← readJson files path).items?
  let (items, e) := e.materializeAll rows
  let items ← orMessage MaterializeError.message (items.mapM id)
  match items with
  | [] => return line "[]"
  | first :: _ =>
    let sorted ← orMessage engineText (e.orderBy noHost first.typeOf text items).1
    return line (Json.array (sorted.map Json.ofValue)).pretty

/-- The value of an expression, over the value of a file if one is named. -/
def evalOver (e : Engine) (text : String) (files : Files) (payload : Option String) :
    Attempt Value := do
  match payload with
  | some path =>
    let (it, e) := e.materialize (← readJson files path)
    let it ← orMessage MaterializeError.message it
    orMessage engineText (e.evaluateOver noHost text it []).1
  | none =>
    let l ← orMessage diagnosticText (e.readLambda [] [] none text).1
    orMessage EvalError.message (l.evaluate noHost [])

def runEval (e : Engine) (text : String) (files : Files) (payload : Option String) (json : Bool) :
    Attempt String := do
  let v ← evalOver e text files payload
  return line (if json then (Json.ofValue v).pretty else v.toText)

def shapeLines : Value → String
  | .record r _ =>
    Text.joinWith "" (r.properties.map fun p => line ("  " ++ p.name ++ ": " ++ p.ty.toText))
  | _ => ""

def runMaterialize (e : Engine) (files : Files) (path : String) : Attempt String := do
  let v ← orMessage MaterializeError.message (e.materialize (← readJson files path)).1
  return line v.toText ++ shapeLines v

def Reading.run (r : Reading) (files : Files) : Attempt String := do
  let e := Engine.ofOptions (← r.options files)
  let payload := r.after.value? .payload
  match r.verb, payload with
  | .parse, _ => runParse e r.operand (← r.parameters) (r.after.value? .result)
  | .order, some path => runSort e r.operand files path
  | .order, none => runOrder e r.operand (← r.parameters)
  | .eval, payload => runEval e r.operand files payload (r.after.has .json)
  | .materialize, _ => runMaterialize e files r.operand

/-- The file name of an operand must not be empty. -/
def Reading.isComplete (r : Reading) : Bool :=
  match r.verb with
  | .materialize => !r.operand.isEmpty
  | _ => true

def run (args : List String) (files : Files) : Report :=
  match Reading.ofArgs args with
  | .error (.help verb) => ⟨0, helpText verb, ""⟩
  | .error .misuse => ⟨2, "", helpText none⟩
  | .ok r =>
    if !r.isComplete then ⟨2, "", helpText none⟩
    else
      match r.run files with
      | .ok output => ⟨0, output, ""⟩
      | .error message => ⟨1, "", line message⟩

def paths (args : List String) : List String :=
  match Reading.ofArgs args with
  | .ok r => r.files
  | .error _ => []

end TypedExpr.CommandLine
