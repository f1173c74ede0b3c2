import ParseEngine.Cursor

namespace ParseEngine

inductive Outcome where
  | success (value : Value) (cursor : Cursor)
  | failure (message : String) (cursor : Cursor) (found : String)

namespace Outcome

def failAt (message : String) (c : Cursor) : Except Halt Outcome := do
  return .failure message c (← c.preview)

def cursor : Outcome → Cursor
  | .success _ c => c
  | .failure _ c _ => c

/-- The end of a success, or the furthest point of a failure. -/
def index (o : Outcome) : Nat :=
  o.cursor.index

def isSuccess : Outcome → Bool
  | .success .. => true
  | .failure .. => false

def value? : Outcome → Option Value
  | .success v _ => some v
  | .failure .. => none

def message? : Outcome → Option String
  | .success .. => none
  | .failure message .. => some message

def map (f : Value → Value) : Outcome → Outcome
  | .success v c => .success (f v) c
  | .failure message c found => .failure message c found

def withCursor (c : Cursor) : Outcome → Outcome
  | .success v _ => .success v c
  | .failure message _ found => .failure message c found

def toExcept : Outcome → Except (String × Cursor) (Value × Cursor)
  | .success v c => .ok (v, c)
  | .failure message c _ => .error (message, c)

def split : Outcome → Except Outcome (Value × Cursor)
  | .success v c => .ok (v, c)
  | failed => .error failed

def same : Outcome → Outcome → Bool
  | .success v c, .success w d => v == w && c == d
  | .failure m c f, .failure n d g => m == n && c == d && f == g
  | _, _ => false

instance : BEq Outcome := ⟨same⟩

def inspect : Outcome → String
  | .success v c => "Success \x7b value: " ++ v.inspect ++ ", state: " ++ c.inspect ++ " \x7d"
  | .failure message c found =>
      "Failure \x7b message: " ++ Text.quoteString message ++ ", state: " ++ c.inspect ++
        ", found: " ++ Text.quoteString found ++ " \x7d"

@[simp] theorem cursor_map (f : Value → Value) (o : Outcome) : (o.map f).cursor = o.cursor := by
  cases o <;> rfl

@[simp] theorem isSuccess_map (f : Value → Value) (o : Outcome) : (o.map f).isSuccess = o.isSuccess := by
  cases o <;> rfl

end Outcome

structure Failure where
  message : String
  cursor : Cursor
  found : String

def Failure.toOutcome (failure : Failure) : Outcome :=
  .failure failure.message failure.cursor failure.found

end ParseEngine
