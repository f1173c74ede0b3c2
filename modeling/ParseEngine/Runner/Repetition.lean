import ParseEngine.Runner.Basic

/-!
Repetitions. A round that succeeds without advancing would repeat for ever and is a failure, except in a
chain of operators, which goes on as long as operator and term succeed.

Each loop has its own fuel, a bound on its rounds.
-/

namespace ParseEngine.Runner

def stuckMessage : String :=
  "Infinite loop in many(): parser succeeded without consuming input"

def manyFrom (required : Bool) (p : Runner) : Nat → (collected : List Value) → Runner
  | 0, _ => exhausted
  | fuel + 1, collected => fun c s => do
      match ← p c s with
      | (.success v d, s) =>
          if d.index = c.index then failHere stuckMessage c s
          else manyFrom required p fuel (v :: collected) d s
      | (.failure message d found, s) =>
          if required && collected.isEmpty then return (.failure message d found, s)
          else yield (.list collected.reverse) c s

def many (required : Bool) (fuel : Nat) (p : Runner) : Runner :=
  manyFrom required p fuel []

/-- Rounds of a separator and an item. A separator without an item after it is not consumed. -/
def separatedFrom (item separator : Runner) : Nat → (collected : List Value) → Runner
  | 0, _ => exhausted
  | fuel + 1, collected => fun c s => do
      match ← separator c s with
      | (.failure .., s) => yield (.list collected.reverse) c s
      | (.success _ d, s) =>
          match ← item d s with
          | (.failure .., s) => yield (.list collected.reverse) c s
          | (.success v e, s) =>
              if e.index = c.index then failHere stuckMessage c s
              else separatedFrom item separator fuel (v :: collected) e s

def sepBy (required : Bool) (fuel : Nat) (item separator : Runner) : Runner := fun c s => do
  match ← item c s with
  | (.success v d, s) => separatedFrom item separator fuel [v] d s
  | (.failure message d found, s) =>
      if required then return (.failure message d found, s) else yield (.list []) c s

def foldFrom (term op : Runner) (f : Value → Value → Value → Value) : Nat → Value → Runner
  | 0, _ => exhausted
  | fuel + 1, acc => fun c s => do
      match ← op c s with
      | (.failure .., s) => yield acc c s
      | (.success o d, s) => term.andThen (fun b => foldFrom term op f fuel (f acc o b)) d s

/-- Terms with operators between them, folded from the left. A term missing after an operator is a failure. -/
def foldLeft (fuel : Nat) (term op : Runner) (f : Value → Value → Value → Value) : Runner :=
  term.andThen fun a => foldFrom term op f fuel a

end ParseEngine.Runner
