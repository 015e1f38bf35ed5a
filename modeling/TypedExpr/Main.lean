import TypedExpr.CommandLine

/-!
# The program

Reads the files that the command line names and prints the report.
-/

open TypedExpr

def contentOf (path : String) : IO (Option String) := do
  try
    let text ← IO.FS.readFile path
    return some text
  catch _ => return none

def main (args : List String) : IO UInt32 := do
  let contents ← (CommandLine.paths args).mapM fun path => do return (path, ← contentOf path)
  let report := CommandLine.run args fun path => (contents.lookup path).join
  IO.print report.output
  IO.eprint report.message
  return report.exitCode.toUInt32
