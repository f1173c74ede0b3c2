import ParseEngine.Cursor

namespace ParseEngine.Cursor

inductive Move where
  | advance (bytes : Nat)
  | moveTo (index : Nat)
  | withContext (context : Value)
  | reset
  | stay

def apply (c start : Cursor) : Move → Except Halt Cursor
  | .advance bytes => c.advance bytes
  | .moveTo index => c.moveTo index
  | .withContext context => .ok (c.withContext context)
  | .reset => .ok start
  | .stay => .ok c

/-- The places that moves lead to one after the other. A move that is not possible is skipped. -/
def follow (start : Cursor) : Cursor → List Move → List (Except Halt Cursor)
  | _, [] => []
  | c, move :: rest =>
      match c.apply start move with
      | .ok d => .ok d :: follow start d rest
      | .error halt => .error halt :: follow start c rest

end ParseEngine.Cursor
