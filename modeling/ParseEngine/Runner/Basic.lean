import ParseEngine.Session.Basic

namespace ParseEngine

abbrev Runner := Cursor → Session → Except Halt (Outcome × Session)

namespace Runner

def exhausted : Runner := fun _ _ => .error .outOfFuel

def yield (v : Value) : Runner := fun c s => .ok (.success v c, s)

def failHere (message : String) : Runner := fun c s => do
  return (← Outcome.failAt message c, s)

def andThen (p : Runner) (next : Value → Runner) : Runner := fun c s => do
  match ← p c s with
  | (.success v d, s) => next v d s
  | (.failure message d found, s) => return (.failure message d found, s)

def mapValue (f : Value → Value) (p : Runner) : Runner := fun c s => do
  let (o, s) ← p c s
  return (o.map f, s)

def pair (p q : Runner) : Runner :=
  p.andThen fun a => q.mapValue (.pair a)

/-- Tries the second where the first fails without having advanced. -/
def orElse (p q : Runner) : Runner := fun c s => do
  match ← p c s with
  | (.success v d, s) => return (.success v d, s)
  | (.failure message d found, s) =>
      if d.index = c.index then q c s else return (.failure message d found, s)

def sequenceFrom : List Runner → (collected : List Value) → Runner
  | [], collected => yield (.list collected.reverse)
  | p :: rest, collected => p.andThen fun v => sequenceFrom rest (v :: collected)

def sequence (parts : List Runner) : Runner :=
  sequenceFrom parts []

def countFrom (p : Runner) : Nat → (collected : List Value) → Runner
  | 0, collected => yield (.list collected.reverse)
  | n + 1, collected => p.andThen fun v => countFrom p n (v :: collected)

def count (n : Nat) (p : Runner) : Runner :=
  countFrom p n []

end Runner
end ParseEngine
