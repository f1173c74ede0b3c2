import ParseEngine.Pattern.Reader
import ParseEngine.Pattern.Search

/-!
Patterns anchored at a place of a text. The written pattern is put into a group after a start-of-text
condition, and the whole is read as one pattern.
-/

namespace ParseEngine

/-- A pattern as it was written, and what it finds in a text: the characters before the match, and the match. -/
structure Pattern where
  source : String
  find? : List Char → Option (List Char × List Char)
  leads : ∀ {text skipped matched : List Char}, find? text = some (skipped, matched) → skipped ++ matched <+: text

namespace Pattern

def ofProgram (source : String) (program : Program) : Pattern :=
  ⟨source, program.slices?, program.slices?_leads⟩

def anchored (source : String) : List Char :=
  '^' :: '(' :: '?' :: ':' :: source.toList ++ [')']

/-- The number of instructions that a pattern may have. It stands for a limit on the memory that a pattern takes, which
depends on how sets of characters are stored. -/
def longest : Nat := 327680

/-- Reads a pattern, which must be well formed together with its anchor and not too long. -/
def ofString? (source : String) : Option Pattern := do
  let tree ← Tree.read? (anchored source)
  if Program.lengthOf tree ≤ longest then return .ofProgram source (.ofTree tree) else none

end Pattern
end ParseEngine
