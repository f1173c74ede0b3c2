import ParseEngine.Grammar.Expr
import ParseEngine.Runner.Choice
import ParseEngine.Runner.Memo
import ParseEngine.Runner.Repetition

/-!
Running the expressions of a grammar. The fuel bounds the nesting of runs and the rounds of each loop; a run
that finishes has the same outcome with more fuel.
-/

namespace ParseEngine

def Runner.detached (p : Runner) : Runner := fun c s => do
  let (o, s) ← p { c with context := none } s
  return (o.withCursor { o.cursor with context := c.context }, s)

def Runner.inMode (id : ParserId) (title : String) (body : Runner) : Mode → Runner
  | .plain => body
  | .memo => .memo id body
  | .leftRecursive => .leftRecursive id title body

/-- Runs an expression. A rule that is missing from the grammar fails like one that was never defined. -/
def Grammar.run (g : Grammar) : Nat → Expr → Runner
  | 0, _ => .exhausted
  | fuel + 1, e =>
      let run := g.run fuel
      match e with
      | .prim p => fun c s => do return (← p.run c, s)
      | .adapt adapter p => .adapt adapter (run p)
      | .chain p next => (run p).andThen fun v => run (next v)
      | .pair a b => .pair (run a) (run b)
      | .orElse a b => .orElse (run a) (run b)
      | .many required p => .many required fuel (run p)
      | .count n p => .count n (run p)
      | .sepBy required item separator => .sepBy required fuel (run item) (run separator)
      | .foldLeft term op f => .foldLeft fuel (run term) (run op) f
      | .sequence parts => .sequence (parts.map run)
      | .choice alternatives => .choice (alternatives.map run)
      | .rule r =>
          match g.rules[r]? with
          | some rule => .inMode (.rule r) rule.title (run rule.body) rule.mode
          | none => fun c s => do return (← Prim.orphan.run c, s)
      | .detached p => .detached (run p)
      | .steps parts script =>
          Script.run fuel (parts.map fun p => ⟨p.description g.rules, run p⟩) script
      | .intercept interceptor p => .intercept g.identify interceptor (run p)

end ParseEngine
