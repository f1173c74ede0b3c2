import ParseEngine.Diagnostic
import ParseEngine.Pattern.Basic
import ParseEngine.Prim
import ParseEngine.Runner.Basic

namespace ParseEngine

/-- The answer to a request that failed or was refused. Only a malformed grammar gives a reason of its own. -/
structure Abort where
  reason : Option String := none
  deriving DecidableEq, Repr

namespace Abort

def defaultText : String := "step sequence aborted"

def text (abort : Abort) : String :=
  abort.reason.getD defaultText

end Abort

structure Part where
  description : String
  runner : Runner

structure Driver where
  cursor : Cursor
  history : List Frame := []
  failure : Option Failure := none

namespace Driver

def start (c : Cursor) : Driver :=
  { cursor := c }

def advance (d : Driver) (description : String) (v : Value) (c : Cursor) : Driver :=
  let frame := ⟨d.history.length + 1, description, v.inspect, c.index⟩
  { d with cursor := c, history := d.history ++ [frame] }

def parse (d : Driver) (description : String) (p : Runner) (s : Session) :
    Except Halt (Except Abort Value × Driver × Session) :=
  if d.failure.isSome then .ok (.error {}, d, s)
  else do
    match ← p d.cursor s with
    | (.success v c, s) => return (.ok v, d.advance description v c, s)
    | (.failure message c found, s) =>
        let s := s.log (.stepFailed (d.history.length + 1) description c.index message)
        return (.error {}, { d with failure := some ⟨message, c, found⟩ }, s)

def parseOptional (d : Driver) (description : String) (p : Runner) (s : Session) :
    Except Halt (Except Abort (Option Value) × Driver × Session) :=
  if d.failure.isSome then .ok (.error {}, d, s)
  else do
    match ← p d.cursor s with
    | (.success v c, s) => return (.ok (some v), d.advance description v c, s)
    | (.failure .., s) => return (.ok none, d, s)

def fail (d : Driver) (message : String) : Except Halt (Abort × Driver) := do
  if d.failure.isSome then return ({}, d)
  else return ({}, { d with failure := some ⟨message, d.cursor, ← d.cursor.preview⟩ })

/-- A step with a pattern that is read now. A malformed one is no step and only gives an abort. -/
def parsePattern (d : Driver) (source : String) (s : Session) :
    Except Halt (Except Abort Value × Driver × Session) :=
  match Pattern.ofString? source with
  | some pattern =>
      let prim := Prim.pattern pattern
      d.parse prim.description (fun c s => do return (← prim.run c, s)) s
  | none =>
      let reason := (Diagnostic.malformedPattern source).message
      .ok (.error ⟨some reason⟩, d, s.log (.stepsAborted reason))

def report (history : List Frame) (terminal : String) : String :=
  s!"step sequence failed after {history.length} successful step(s):\n" ++
    String.join (history.map fun frame => "  " ++ frame.line ++ "\n") ++ terminal

/-- The outcome of a script that ended with a value or an abort. The first failure decides. -/
def finish (d : Driver) : Except Abort Value → Except Halt Outcome
  | answer => do
      match d.failure, answer with
      | some failure, _ => return .failure (report d.history failure.message) failure.cursor failure.found
      | none, .ok v => return .success v d.cursor
      | none, .error abort => Outcome.failAt (report d.history abort.text) d.cursor

end Driver
end ParseEngine
