import TypedExpr.Options

/-!
# Command-line arguments

A command line gives settings, a command, and the options and the operand of the command; settings
may stand on either side of the command. Options are written `--name value`, `--name=value`,
`-n value`, `-nvalue` or `-n=value`, and after `--` everything is an operand. An argument that
begins with a hyphen is never the value of the option before it.
-/

namespace TypedExpr.CommandLine

inductive Verb where
  | parse
  | order
  | eval
  | materialize
  deriving DecidableEq, Repr

inductive Switch where
  | config
  | maxDepth
  | maxRecordTypes
  | logLevel
  | param
  | it
  | result
  | payload
  | json
  | help
  deriving DecidableEq, Repr

namespace Verb

def all : List Verb := [.parse, .order, .eval, .materialize]

def name : Verb → String
  | parse => "parse"
  | order => "order"
  | eval => "eval"
  | materialize => "materialize"

def ofName? (word : String) : Option Verb := all.find? fun v => v.name == word

def switches : Verb → List Switch
  | parse => [.config, .param, .it, .maxDepth, .maxRecordTypes, .result, .logLevel, .help]
  | order => [.config, .param, .it, .maxDepth, .maxRecordTypes, .payload, .logLevel, .help]
  | eval => [.config, .payload, .json, .maxDepth, .maxRecordTypes, .logLevel, .help]
  | materialize => [.config, .maxDepth, .maxRecordTypes, .logLevel, .help]

end Verb

namespace Switch

/-- The options that may stand before the command. -/
def settings : List Switch := [.config, .maxDepth, .maxRecordTypes, .logLevel, .help]

def long : Switch → String
  | config => "config"
  | maxDepth => "max-depth"
  | maxRecordTypes => "max-record-types"
  | logLevel => "log-level"
  | param => "param"
  | it => "it"
  | result => "result"
  | payload => "payload"
  | json => "json"
  | help => "help"

/-- The name of one letter. -/
def short? : Switch → Option Char
  | config => some 'c'
  | param => some 'p'
  | result => some 'r'
  | help => some 'h'
  | _ => none

def hasValue : Switch → Bool
  | json | help => false
  | _ => true

/-- The option may be given more than once. -/
def isRepeatable : Switch → Bool
  | param => true
  | _ => false

def depth? (text : String) : Option Nat :=
  ((Read.intWithin? (-2 ^ 63) (2 ^ 63 - 1) text.toList).filter fun n =>
    0 ≤ n && n < 2 ^ 32).map Int.toNat

/-- The number of record types that a text asks for. -/
def count? (text : String) : Option Nat :=
  (Read.intWithin? 0 (2 ^ 64 - 1) text.toList).map Int.toNat

/-- The option can have this value: numbers are in range and names of files are not empty. -/
def accepts (s : Switch) (value : String) : Bool :=
  match s with
  | maxDepth => (depth? value).isSome
  | maxRecordTypes => (count? value).isSome
  | config | payload => !value.isEmpty
  | _ => true

end Switch

/-- Why a command line is not carried out. -/
inductive Stop where
  | help (verb : Option Verb)
  /-- Something is wrong with it. -/
  | misuse
  deriving DecidableEq, Repr

/-- What has been read on one side of the command. -/
structure Given where
  /-- Options and their values, the last one first. -/
  options : List (Switch × String)
  operand : Option String
  /-- An option that waits for its value. -/
  pending : Option Switch
  /-- Everything from here on is an operand. -/
  escaped : Bool

namespace Given

def nothing : Given := ⟨[], none, none, false⟩

def value? (g : Given) (s : Switch) : Option String := g.options.lookup s

def values (g : Given) (s : Switch) : List String :=
  ((g.options.filter fun o => o.1 == s).map (·.2)).reverse

def has (g : Given) (s : Switch) : Bool := (g.value? s).isSome

def put (g : Given) (s : Switch) (value : String) : Except Stop Given :=
  if !s.accepts value || !s.isRepeatable && g.has s then .error .misuse
  else .ok { g with options := (s, value) :: g.options, pending := none }

/-- Enter an option with the value that is written with it, if there is one. -/
def putSwitch (g : Given) (verb : Option Verb) (s : Switch) (attached : Option String) :
    Except Stop Given :=
  if g.pending.isSome then .error .misuse
  else if s.hasValue then
    match attached with
    | some value => g.put s value
    | none => .ok { g with pending := some s }
  else if attached.isSome && s != .help then .error .misuse
  else if s = .help then .error (.help verb)
  else g.put s ""

def putOperand (g : Given) (text : String) : Except Stop Given :=
  if g.pending.isSome || g.operand.isSome then .error .misuse
  else .ok { g with operand := some text }

def known (verb : Option Verb) : List Switch :=
  match verb with
  | none => Switch.settings
  | some v => v.switches

def readLong (g : Given) (verb : Option Verb) (cs : List Char) : Except Stop Given :=
  let (name, attached) := match Text.splitFirst? '=' cs with
    | some (name, value) => (name, some (String.ofList value))
    | none => (cs, none)
  match (known verb).find? fun s => s.long.toList == name with
  | some .help => if attached.isSome then .error .misuse else g.putSwitch verb .help none
  | some s => g.putSwitch verb s attached
  | none => .error .misuse

/-- Read an option by its letter, and what is written behind it. -/
def readShort (g : Given) (verb : Option Verb) (letter : Char) (rest : List Char) :
    Except Stop Given :=
  let attached := match rest with
    | [] => none
    | '=' :: value => some (String.ofList value)
    | value => some (String.ofList value)
  match (known verb).find? fun s => s.short? == some letter with
  | some s => g.putSwitch verb s attached
  | none => .error .misuse

def read (g : Given) (verb : Option Verb) (arg : String) : Except Stop Given :=
  if g.escaped then g.putOperand arg
  else
    match arg.toList with
    | ['-', '-'] => .ok { g with escaped := true }
    | '-' :: '-' :: rest => g.readLong verb rest
    | '-' :: letter :: rest => g.readShort verb letter rest
    | _ =>
      match g.pending with
      | some s => g.put s arg
      | none => g.putOperand arg

/-- Nothing is missing at the end. -/
def finish (g : Given) : Except Stop Given := if g.pending.isSome then .error .misuse else .ok g

end Given

/-- A command with what has been read on both sides of it. -/
structure Reading where
  before : Given
  verb : Verb
  after : Given

namespace Reading

/-- The word is a command where it stands. -/
def startsCommand (g : Given) (word : String) : Bool :=
  !g.escaped && g.pending.isNone && (word == "help" || (Verb.ofName? word).isSome)

/-- What help is asked for after the word `help`. -/
def helpOn : List String → Stop
  | [] | ["help"] => .help none
  | [word] => match Verb.ofName? word with
    | some v => .help (some v)
    | none => .misuse
  | _ => .misuse

def command (before : Given) (verb : Verb) (args : List String) : Except Stop Reading := do
  let after ← args.foldlM (fun g arg => g.read (some verb) arg) Given.nothing
  let after ← after.finish
  let before ← before.finish
  if after.operand.isNone then throw .misuse
  return ⟨before, verb, after⟩

/-- Read a command line from its settings on. -/
def settings (g : Given) : List String → Except Stop Reading
  | [] => .error .misuse
  | arg :: rest =>
    if startsCommand g arg then
      match Verb.ofName? arg with
      | some verb => command g verb rest
      | none => .error (helpOn rest)
    else do
      let g ← g.read none arg
      if g.operand.isSome then throw .misuse
      settings g rest

def ofArgs (args : List String) : Except Stop Reading := settings Given.nothing args

/-- The value of a setting; the one after the command counts. -/
def setting? (r : Reading) (s : Switch) : Option String := r.after.value? s <|> r.before.value? s

def overrides (r : Reading) : Overrides where
  maxNestingDepth := (r.setting? .maxDepth).bind Switch.depth?
  maxRecordTypes := (r.setting? .maxRecordTypes).bind Switch.count?
  coerceArrayElements := none

def operand (r : Reading) : String := r.after.operand.getD ""

def files (r : Reading) : List String :=
  (r.setting? .config).toList ++ (r.after.value? .payload).toList ++
    match r.verb with
    | .materialize => [r.operand]
    | _ => []

end Reading
end TypedExpr.CommandLine
