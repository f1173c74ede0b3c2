import ParseEngine.Kind
import ParseEngine.Runner.Basic

namespace ParseEngine

/-- `unless` turns success into failure and back; `describe` and `forward` change no outcome, only how the
parser presents itself. -/
inductive Adapter where
  | map (f : Value → Value)
  | filter (test : Value → Bool) (message : String)
  | label (message : String)
  | tag (name : String)
  | lookahead
  | attempt
  | optional
  | unless (what : String)
  | describe (description : String)
  | forward

namespace Adapter

def apply : Adapter → Cursor → Outcome → Except Halt Outcome
  | .map f, _, o => return o.map f
  | .filter test message, c, .success v d => if test v then return .success v d else Outcome.failAt message c
  | .label message, _, .failure _ d found => return .failure message d found
  | .tag name, _, .failure message d found => return .failure (s!"[in {name}] " ++ message) d found
  | .lookahead, c, .success v _ => return .success v c
  | .attempt, c, .failure message _ _ => Outcome.failAt message c
  | .optional, _, .success v d => return .success (.present v) d
  | .optional, c, .failure .. => return .success .absent c
  | .unless what, c, .success .. => Outcome.failAt ("Unexpected " ++ what) c
  | .unless _, c, .failure .. => return .success .unit c
  | _, _, o => return o

def kind (inner : Kind) : Adapter → Kind
  | .map _ => .map
  | .filter .. => .filter
  | .label _ => .label
  | .tag _ => .tagged
  | .lookahead => .lookahead
  | .attempt => .attempt
  | .optional => .optional
  | .unless _ => .notFollowedBy
  | .describe _ => inner
  | .forward => .recursive

def description (inner : String) : Adapter → String
  | .map _ | .filter .. | .tag _ | .attempt => inner
  | .label message => message
  | .lookahead => "lookahead " ++ inner
  | .optional => "optional " ++ inner
  | .unless what => "not " ++ what
  | .describe description => description
  | .forward => "recursive rule"

end Adapter

def Runner.adapt (adapter : Adapter) (p : Runner) : Runner := fun c s => do
  let (o, s) ← p c s
  return (← adapter.apply c o, s)

end ParseEngine
