import ParseEngine.Grammar.Builder
import ParseEngine.Grammar.Run

namespace ParseEngine

/-- More fuel than any run that ends can use. -/
def ampleFuel : Nat := 1 <<< 62

namespace Grammar

def runIn (g : Grammar) (e : Expr) : Runner :=
  g.run ampleFuel e

def runFresh (g : Grammar) (e : Expr) (c : Cursor) (options : Options) : Except Halt (Outcome × Session) :=
  g.runIn e c (.fresh options {})

end Grammar

def conclude (text : List Char) (options : Options) : Outcome → Except Diagnostic (Value × Cursor)
  | .success v c =>
      if options.consumeAll && !c.isAtEnd then .error (.stoppedAt text c.index) else .ok (v, c)
  | .failure message c found => .error (.parseFailure text c.index message found)

namespace Grammar

def parseWith (g : Grammar) (fuel : Nat) (root : Parser) (text : List Char) (options : Options) :
    Except Halt (Except Diagnostic (Value × Cursor) × Session) := do
  let (o, s) ← g.run fuel root.expr (.start text none) (.fresh options {})
  return (conclude text options o, s.log (.parseFinished root.id s.stats))

def parse (g : Grammar) (root : Parser) (text : List Char) (options : Options) :
    Except Halt (Except Diagnostic (Value × Cursor) × Session) :=
  g.parseWith ampleFuel root text options

def parseInContext (g : Grammar) (root : Parser) (text : List Char) (context : Value) (options : Options) :
    Except Halt (Except Diagnostic (Value × Cursor) × Session) := do
  let (o, s) ← g.runFresh root.expr (.start text (some context)) options
  return (conclude text options o, s)

end Grammar

namespace Calculator

/-- Enough for any expression in the text: runs only nest deeper inside parentheses, and each pair of them takes two
characters. -/
def fuelFor (text : List Char) : Nat :=
  20 * (Text.byteLength text + 2)

def evaluate (text : List Char) (options : Options) : Except Halt (Except Diagnostic Float × Session) := do
  let root : Parser := ⟨.plain 0, calculator 0⟩
  let (result, s) ← grammar.parseWith (fuelFor text) root text options
  return (result.map fun | (.float x, _) => x | _ => 0, s)

end Calculator
end ParseEngine
