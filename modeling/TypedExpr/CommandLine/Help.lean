import TypedExpr.CommandLine.Arguments

/-!
# Help on the command line

Commands stand in a column of their own beside what they do. Every option stands on a line of its
own, with what it does on the next one.
-/

namespace TypedExpr.CommandLine

def programName : String := "typedexpr"

namespace Verb

def about : Verb → String
  | parse => "Parse an expression and print its typed tree"
  | order => "Parse an ordering clause, or sort a JSON array of objects by it"
  | eval => "Evaluate an expression, optionally over a JSON payload bound to `it`"
  | materialize => "Materialize a JSON file and print the value and its record shape"

def operandName : Verb → String
  | parse | eval => "EXPRESSION"
  | order => "ORDERING"
  | materialize => "FILE"

end Verb

namespace Switch

def valueName : Switch → String
  | config => "CONFIG"
  | maxDepth => "MAX_DEPTH"
  | maxRecordTypes => "MAX_RECORD_TYPES"
  | logLevel => "LOG_LEVEL"
  | param => "NAME:TYPE"
  | it => "IT"
  | result => "RESULT"
  | payload => "PAYLOAD"
  | json | help => ""

def about : Switch → String
  | config => "Engine options file (JSON)"
  | maxDepth => "Maximum expression nesting depth"
  | maxRecordTypes => "Maximum number of synthesized record types"
  | logLevel => "Log filter"
  | param => "Named parameter as NAME:TYPE, e.g. `x:Int32?`. Repeatable"
  | it => "Type of the implicit `it` parameter"
  | result => "Required result type"
  | payload => "File holding the JSON payload"
  | json => "Print the result as JSON"
  | help => "Print help"

def usage (s : Switch) : String :=
  (match s.short? with
    | some c => "-" ++ String.singleton c ++ ", "
    | none => "    ") ++
    "--" ++ s.long ++ if s.hasValue then " <" ++ s.valueName ++ ">" else ""

def helpLines (s : Switch) : String := "  " ++ s.usage ++ "\n          " ++ s.about ++ "\n"

end Switch

def padRight (width : Nat) (s : String) : String :=
  s ++ String.ofList (List.replicate (width - s.length) ' ')

def commandLine (name about : String) : String := "  " ++ padRight 11 name ++ "  " ++ about ++ "\n"

def optionLines (switches : List Switch) : String :=
  "Options:\n" ++ Text.joinWith "" (switches.map Switch.helpLines)

def helpText : Option Verb → String
  | none =>
    "Parse and evaluate dynamic expressions\n\nUsage: " ++ programName ++
      " [OPTIONS] <COMMAND>\n\nCommands:\n" ++
      Text.joinWith "" (Verb.all.map fun v => commandLine v.name v.about) ++
      commandLine "help" "Print this message or the help of the given subcommand(s)" ++ "\n" ++
      optionLines Switch.settings
  | some v =>
    v.about ++ "\n\nUsage: " ++ programName ++ " " ++ v.name ++ " [OPTIONS] <" ++ v.operandName ++
      ">\n\nArguments:\n  <" ++ v.operandName ++ ">  \n\n" ++ optionLines v.switches

end TypedExpr.CommandLine
