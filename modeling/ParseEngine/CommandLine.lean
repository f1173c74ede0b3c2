import ParseEngine.Engine
import ParseEngine.Session.OptionsReader

namespace ParseEngine.CommandLine

structure Calculation where
  expression : Option String := none
  file : Option String := none
  options : Option String := none
  stats : Bool := false

inductive Command where
  | version
  | help
  | calculate (calculation : Calculation)

def setPath (calculation : Calculation) (name path : String) : Option Calculation :=
  if path.isEmpty then none
  else if name = "file" then
    if calculation.file.isSome then none else some { calculation with file := some path }
  else if name = "options" then
    if calculation.options.isSome then none else some { calculation with options := some path }
  else none

def setStats (calculation : Calculation) : Option Calculation :=
  if calculation.stats then none else some { calculation with stats := true }

def setExpression (calculation : Calculation) (expression : String) : Option Calculation :=
  if calculation.expression.isSome then none else some { calculation with expression := some expression }

def isOption (argument : String) : Bool :=
  match argument.toList with
  | '-' :: _ :: _ => true
  | _ => false

def check (calculation : Calculation) : Option Command :=
  if calculation.expression.isSome == calculation.file.isSome then none else some (.calculate calculation)

def readArguments : List String → Calculation → Option Command
  | [], calculation => check calculation
  | argument :: rest, calculation =>
      match argument.toList with
      | ['-', '-'] => rest.foldlM setExpression calculation |>.bind check
      | '-' :: '-' :: long =>
          let name := String.ofList (long.takeWhile (· != '='))
          match long.drop name.length with
          | '=' :: value => do
              if name = "file" || name = "options" then
                readArguments rest (← setPath calculation name (String.ofList value))
              else none
          | _ =>
              if name = "stats" then (setStats calculation).bind (readArguments rest)
              else if name = "help" then some .help
              else if name = "file" || name = "options" then readPath name rest calculation
              else none
      | ['-', 'f'] => readPath "file" rest calculation
      | '-' :: 'f' :: '=' :: value =>
          (setPath calculation "file" (String.ofList value)).bind (readArguments rest)
      | '-' :: 'f' :: value =>
          (setPath calculation "file" (String.ofList value)).bind (readArguments rest)
      | '-' :: 'h' :: _ => some .help
      | '-' :: _ :: _ => none
      | _ => (setExpression calculation argument).bind (readArguments rest)
where
  /-- The file name in the next argument. -/
  readPath (name : String) : List String → Calculation → Option Command
    | [], _ => none
    | path :: rest, calculation =>
        if isOption path then none else (setPath calculation name path).bind (readArguments rest)

def Command.read? : List String → Option Command
  | "calc" :: rest => readArguments rest {}
  | "--version" :: _ | "-V" :: _ => some .version
  | "--help" :: _ | "-h" :: _ | ["help"] | ["help", "calc"] | ["help", "help"] => some .help
  | _ => none

def Command.paths : Command → List String
  | .calculate calculation => calculation.file.toList ++ calculation.options.toList
  | _ => []

structure Report where
  exit : UInt8
  stdout : String := ""
  stderr : String := ""

namespace Report

def misuse : Report :=
  { exit := 2, stderr := "error: invalid arguments\n\nUsage: weft calc [OPTIONS] [EXPR]\n" }

def failure (message : String) : Report :=
  { exit := 1, stderr := message ++ "\n" }

end Report

def renderDiagnostic (d : Diagnostic) : String :=
  let source := (d.excerpt?.map (·.source)).toList
  let markers := (d.markers?.getD []).map (·.text)
  "\n".intercalate ([d.code, d.message] ++ source ++ markers ++ d.help?.toList)

def readFile (files : String → Option String) (path : String) : Except Report String :=
  match files path with
  | some text => .ok text
  | none => .error (.failure s!"could not read {path}")

def readOptions (files : String → Option String) (path : String) : Except Report Options := do
  let text ← readFile files path
  match Options.read? text with
  | some options => return options
  | none => .error (.failure s!"invalid parse options in {path}")

def calculate (files : String → Option String) (calculation : Calculation) : Except Report Report := do
  let source ← match calculation.expression, calculation.file with
    | some expression, _ => pure expression
    | none, some path => readFile files path
    | none, none => .error (.failure "no expression given")
  let options ← match calculation.options with
    | some path => readOptions files path
    | none => pure {}
  match Calculator.evaluate source.toList options with
  | .error _ => .error (.failure "the evaluation did not end")
  | .ok (.error d, _) => .error (.failure (renderDiagnostic d))
  | .ok (.ok x, s) =>
      let stats := if calculation.stats then s.stats.render ++ "\n" else ""
      return { exit := 0, stdout := Binary64.display x ++ "\n" ++ stats }

def run (files : String → Option String) : Option Command → Report
  | none => .misuse
  | some .version => { exit := 0, stdout := "weft 0.1.0\n" }
  | some .help => { exit := 0, stdout := "Usage: weft calc [OPTIONS] [EXPR]\n" }
  | some (.calculate calculation) =>
      match calculate files calculation with
      | .ok report => report
      | .error report => report

end ParseEngine.CommandLine
