import ParseEngine.Steps.Driver

/-!
Scripts of step sequences. A script is a list of statements; a statement is any adaptive sequence of requests to the
driver, a loop, a branch or a binding. Parsers are mentioned by their number in a list of parts.
-/

namespace ParseEngine

inductive Term where
  | var (name : String)
  | list (items : List Term)
  | pair (first second : Term)
  | apply (f : Value → Value) (argument : Term)
  | constant (v : Value)
  | position
  | history
  | remaining
  deriving Inhabited

inductive Request where
  | parse (part : Nat) (description : Option String)
  | optional (part : Nat)
  | fail (message : String)
  | pattern (source : String)
  | foreignAbort

inductive Flow where
  | next
  | given (v : Value)
  | aborted (abort : Abort)

structure Outlook where
  bindings : List (String × Value)
  cursor : Cursor
  history : List Frame

/-- A stretch of a script. It chooses each request by the answers and by what it sees, and ends with bindings. -/
inductive Plan (α : Type) where
  | ends (a : α) (bindings : List (String × Value))
  | ask (request : Request) (next : Except Abort Value → Outlook → Plan α)
  | note (event : (position steps : Nat) → TraceEvent) (next : Plan α)

inductive Stmt where
  | follow (plan : Outlook → Plan Flow)
  | rounds (head : Outlook → Plan (Option Flow)) (body : List Stmt)
  | branch (of : Term) (test : Value → Bool) (yes no : List Stmt)
  | assign (bind : String) (of : Term)
  | note (of : Term)
  | give (of : Term)

instance : Inhabited Stmt := ⟨.give (.constant .unit)⟩

/-- Binds the value of an answer. A caught abort is noted, binds the unit value and lets the script go on; one that is
not caught ends it. -/
def Plan.settle {α : Type} (leave : Flow → α) (bindings : List (String × Value)) (bind : String) (caught : Bool) :
    Except Abort Value → Plan α
  | .ok v => .ends (leave .next) ((bind, v) :: bindings)
  | .error abort =>
      if caught then .note (.caught abort.text) (.ends (leave .next) ((bind, .unit) :: bindings))
      else .ends (leave (.aborted abort)) bindings

namespace Stmt

def ask (request : Request) (bind : String) (caught : Bool) : Stmt :=
  .follow fun outlook => .ask request fun answer _ => .settle id outlook.bindings bind caught answer

def loop (part : Nat) (body : List Stmt) (bind : String) (caught : Bool) : Stmt :=
  .rounds (fun outlook => .ask (.optional part) fun
    | .ok (.present _), _ => .ends none outlook.bindings
    | .ok _, _ => .settle some outlook.bindings bind caught (.ok .unit)
    | .error abort, _ => .settle some outlook.bindings bind caught (.error abort)) body

end Stmt

structure Scene where
  driver : Driver
  session : Session
  bindings : List (String × Value) := []

namespace Scene

def valueOf (scene : Scene) (name : String) : Value :=
  (scene.bindings.lookup name).getD .unit

def bind (scene : Scene) (name : String) (v : Value) : Scene :=
  { scene with bindings := (name, v) :: scene.bindings }

mutual
def eval (scene : Scene) : Term → Except Halt Value
  | .var name => return scene.valueOf name
  | .list items => return .list (← scene.evalAll items)
  | .pair a b => return .pair (← scene.eval a) (← scene.eval b)
  | .apply f argument => return f (← scene.eval argument)
  | .constant v => return v
  | .position => return .ofIndex scene.driver.cursor.index
  | .history => return .list (scene.driver.history.map .frame)
  | .remaining => return .text (String.ofList (← scene.driver.cursor.remaining))

def evalAll (scene : Scene) : List Term → Except Halt (List Value)
  | [] => return []
  | t :: rest => return (← scene.eval t) :: (← scene.evalAll rest)
end

def observe (scene : Scene) (event : (position steps : Nat) → TraceEvent) : Scene :=
  { scene with
    session := scene.session.trace (event scene.driver.cursor.index scene.driver.history.length) }

def withDriver (scene : Scene) (d : Driver) (s : Session) : Scene :=
  { scene with driver := d, session := s }

def outlook (scene : Scene) : Outlook :=
  ⟨scene.bindings, scene.driver.cursor, scene.driver.history⟩

end Scene

def partAt (parts : List Part) (n : Nat) : Part :=
  parts[n]?.getD ⟨"", Runner.failHere ""⟩

def Request.put (parts : List Part) (scene : Scene) : Request → Except Halt (Except Abort Value × Scene)
  | .parse n description => do
      let part := partAt parts n
      let (answer, d, s) ← scene.driver.parse (description.getD part.description) part.runner scene.session
      return (answer, scene.withDriver d s)
  | .optional n => do
      let part := partAt parts n
      let (answer, d, s) ← scene.driver.parseOptional part.description part.runner scene.session
      return (answer.map .ofOption, scene.withDriver d s)
  | .fail message => do
      let (abort, d) ← scene.driver.fail message
      return (.error abort, scene.withDriver d scene.session)
  | .pattern source => do
      let (answer, d, s) ← scene.driver.parsePattern source scene.session
      return (answer, scene.withDriver d s)
  | .foreignAbort => return (.error {}, scene)

def Plan.play {α : Type} (parts : List Part) : Plan α → Scene → Except Halt (α × Scene)
  | .ends a bindings, scene => .ok (a, { scene with bindings })
  | .ask request next, scene => do
      let (answer, scene) ← request.put parts scene
      (next answer scene.outlook).play parts scene
  | .note event next, scene => next.play parts (scene.observe event)

namespace Script

def runLoop (head : Scene → Except Halt (Option Flow × Scene)) (body : Scene → Except Halt (Flow × Scene)) :
    Nat → Scene → Except Halt (Flow × Scene)
  | 0, _ => .error .outOfFuel
  | fuel + 1, scene => do
      match ← head scene with
      | (some flow, scene) => return (flow, scene)
      | (none, scene) =>
          match ← body scene with
          | (.next, scene) => runLoop head body fuel scene
          | ended => return ended

def runBlock (parts : List Part) : Nat → List Stmt → Scene → Except Halt (Flow × Scene)
  | 0, _, _ => .error .outOfFuel
  | _ + 1, [], scene => .ok (.next, scene)
  | fuel + 1, stmt :: rest, scene => do
      let ended ← match stmt with
        | .follow plan => (plan scene.outlook).play parts scene
        | .rounds head body =>
            runLoop (fun scene => (head scene.outlook).play parts scene) (runBlock parts fuel body) fuel scene
        | .branch of test yes no => do
            runBlock parts fuel (if test (← scene.eval of) then yes else no) scene
        | .assign bind of => do
            pure (.next, scene.bind bind (← scene.eval of))
        | .note of => do
            pure (.next, scene.observe (.note (← scene.eval of)))
        | .give of => do
            pure (.given (← scene.eval of), scene)
      match ended with
      | (.next, scene) => runBlock parts fuel rest scene
      | ended => return ended

def run (fuel : Nat) (parts : List Part) (script : List Stmt) : Runner := fun c s => do
  let (flow, scene) ← runBlock parts fuel script { driver := .start c, session := s }
  let answer := match flow with
    | .next => .ok .unit
    | .given v => .ok v
    | .aborted abort => .error abort
  return (← scene.driver.finish answer, scene.session)

end Script
end ParseEngine
