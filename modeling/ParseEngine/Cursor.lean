import ParseEngine.Text.Bytes
import ParseEngine.Value.Basic

/-!
A cursor is a text, a byte index into it and, for grammars that carry one, a context value. Moving makes a
new cursor, so backtracking is the reuse of an earlier one.
-/

namespace ParseEngine

/-- Why a run has no outcome: its fuel was used up, or a cursor was moved past the end of the text or read
inside a character. -/
inductive Halt where
  | outOfFuel
  | misplaced
  deriving DecidableEq, Repr

structure Cursor where
  text : List Char
  index : Nat
  context : Option Value := none

namespace Cursor

def start (text : List Char) (context : Option Value) : Cursor :=
  { text, index := 0, context }

def settled (text : List Char) (index : Nat) (context : Option Value) : Cursor :=
  { text, index := Text.floorOffset index text, context }

def length (c : Cursor) : Nat :=
  Text.byteLength c.text

def moveTo (c : Cursor) (index : Nat) : Except Halt Cursor :=
  if index ≤ c.length then .ok { c with index } else .error .misplaced

def advance (c : Cursor) (bytes : Nat) : Except Halt Cursor :=
  c.moveTo (c.index + bytes)

def remaining (c : Cursor) : Except Halt (List Char) :=
  match Text.dropBytes? c.index c.text with
  | some rest => .ok rest
  | none => .error .misplaced

def isAtEnd (c : Cursor) : Bool :=
  decide (c.length ≤ c.index)

/-- The cursor with another context; a cursor that carries none stays as it is. -/
def withContext (c : Cursor) (context : Value) : Cursor :=
  { c with context := c.context.map fun _ => context }

def previewSize : Nat := 12

def previewOf (rest : List Char) : String :=
  if rest.isEmpty then "end of input"
  else if rest.length ≤ previewSize then Text.quote rest
  else Text.quote (rest.take previewSize) ++ "..."

def preview (c : Cursor) : Except Halt String :=
  c.remaining.map previewOf

def same (c d : Cursor) : Bool :=
  c.index == d.index && c.text == d.text && c.context == d.context

instance : BEq Cursor := ⟨same⟩

def inspectBase (c : Cursor) : String :=
  s!"ParseState \x7b index: {c.index}, len: {c.length} \x7d"

def inspect (c : Cursor) : String :=
  match c.context with
  | none => c.inspectBase
  | some context => s!"ContextState \x7b index: {c.index}, context: " ++ context.inspect ++ " \x7d"

end Cursor
end ParseEngine
