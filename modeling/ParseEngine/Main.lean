import ParseEngine.CommandLine

namespace ParseEngine.CommandLine

def readText (path : String) : IO (Option String) := do
  try
    return some (← IO.FS.readFile path)
  catch _ => return none

end ParseEngine.CommandLine

open ParseEngine CommandLine

def main (arguments : List String) : IO UInt32 := do
  let command := Command.read? arguments
  let paths := (command.map (·.paths)).getD []
  let files ← paths.mapM fun path => do return (path, ← readText path)
  let report := CommandLine.run (fun path => (files.lookup path).bind id) command
  IO.print report.stdout
  IO.eprint report.stderr
  return report.exit.toUInt32
