import ParseEngine.Text.Bytes

namespace ParseEngine

/-- The line and the column of an index, both from one. Columns count characters. An index inside a character
or past the end counts as the nearest place before it. -/
def lineColumn (text : List Char) (index : Nat) : Nat × Nat :=
  let before := Text.takeBytes index text
  (before.count '\n' + 1, (before.reverse.takeWhile (· != '\n')).length + 1)

structure Excerpt where
  source : String
  offset : Nat
  length : Nat
  help : Option String

namespace Excerpt

def around (text : List Char) (offset : Nat) : Excerpt :=
  let length := match Text.dropBytes? offset text with
    | some (c :: _) => c.utf8Size
    | _ => 0
  { source := String.ofList text, offset, length, help := none }

def sourceName : String := "input"

end Excerpt

structure Marker where
  text : String
  offset : Nat
  length : Nat

inductive Diagnostic where
  | parse (message : String) (line column index : Nat) (found : String) (excerpt : Excerpt)
  | incomplete (index : Nat) (excerpt : Excerpt)
  | grammar (message : String) (cause : Option String)

namespace Diagnostic

def parseFailure (text : List Char) (index : Nat) (message found : String) : Diagnostic :=
  let (line, column) := lineColumn text index
  .parse message line column index found (.around text index)

def incompleteHelp : String :=
  "use ParseOptions::default().with_consume_all(false) to allow trailing input"

def stoppedAt (text : List Char) (index : Nat) : Diagnostic :=
  .incomplete index { Excerpt.around text index with help := some incompleteHelp }

def message : Diagnostic → String
  | .parse message line column .. => s!"Parse error at line {line}, col {column}: {message}"
  | .incomplete index _ => s!"Parser did not consume entire input. Stopped at index {index}"
  | .grammar message _ => s!"Invalid grammar: {message}"

def kindName : Diagnostic → String
  | .parse .. => "Parse"
  | .incomplete .. => "Incomplete"
  | .grammar .. => "Grammar"

def code : Diagnostic → String
  | .parse .. => "weft::parse"
  | .incomplete .. => "weft::incomplete"
  | .grammar .. => "weft::grammar"

def index? : Diagnostic → Option Nat
  | .parse _ _ _ index .. => some index
  | .incomplete index _ => some index
  | .grammar .. => none

def excerpt? : Diagnostic → Option Excerpt
  | .parse _ _ _ _ _ excerpt => some excerpt
  | .incomplete _ excerpt => some excerpt
  | .grammar .. => none

def help? (d : Diagnostic) : Option String :=
  d.excerpt?.bind (·.help)

def cause? : Diagnostic → Option String
  | .grammar _ cause => cause
  | _ => none

def markers? : Diagnostic → Option (List Marker)
  | .parse message _ _ _ found excerpt =>
      some [⟨s!"{message} (found {found})", excerpt.offset, excerpt.length⟩]
  | .incomplete _ excerpt => some [⟨"unconsumed input starts here", excerpt.offset, excerpt.length⟩]
  | .grammar .. => none

def malformedPattern (source : String) : Diagnostic :=
  .grammar s!"invalid regex /{source}/" (some "malformed pattern")

end Diagnostic
end ParseEngine
