import ParseEngine.Calculator
import ParseEngine.Diagnostic

namespace ParseEngine

structure Parser where
  id : ParserId
  expr : Expr

def Parser.inspect (g : Grammar) (p : Parser) : String :=
  "Parser \x7b id: ParserId(_), kind: " ++ (p.expr.kind g.rules).name ++ ", description: " ++
    Text.quoteString (p.expr.description g.rules) ++ " \x7d"

inductive BuildError where
  | malformed (message : String)
  | pattern (source : String)
  deriving DecidableEq, Repr

structure Builder where
  grammar : Grammar := {}
  parsers : Nat := 0
  counters : Nat := 0

abbrev Build := StateT Builder (Except BuildError)

namespace Build

def refuse {α : Type} (error : BuildError) : Build α := fun _ => .error error

def rules : Build (List Rule) := do
  return (← get).grammar.rules

def parser (expr : Expr) : Build Parser := do
  let builder ← get
  set { builder with parsers := builder.parsers + 1 }
  return ⟨.plain builder.parsers, expr⟩

def counter : Build Nat := do
  let builder ← get
  set { builder with counters := builder.counters + 1 }
  return builder.counters

def addRules (new : List Rule) : Build Nat := do
  let builder ← get
  let rules := builder.grammar.rules
  set { builder with grammar := { builder.grammar with rules := rules ++ new } }
  return rules.length

/-- A rule that fails until it is defined. -/
def reserve : Build Nat :=
  addRules [⟨.plain, Prim.orphan.description, .prim .orphan⟩]

def define (r : Nat) (mode : Mode) (body : Expr) : Build Unit :=
  modify fun builder =>
    let rules := builder.grammar.rules
    { builder with
      grammar := { builder.grammar with rules := rules.set r ⟨mode, body.description rules, body⟩ } }

def ruleParser (r : Nat) : Parser :=
  ⟨.rule r, .rule r⟩

def wrap (mode : Mode) (p : Parser) : Build Parser := do
  let r ← addRules [⟨mode, p.expr.description (← rules), p.expr⟩]
  return ruleParser r

def recursive (body : Parser → Build Parser) : Build Parser := do
  let r ← reserve
  let p ← body (← parser (.adapt .forward (.rule r)))
  define r .plain p.expr
  return p

def leftRecursive (body : Parser → Build Parser) : Build Parser := do
  let r ← reserve
  let p ← body (← parser (.adapt .forward (.rule r)))
  define r .leftRecursive p.expr
  return ruleParser r

def orphan (body : Parser → Build Parser) : Build Parser := do
  let handle ← parser (.prim .orphan)
  let _ ← body handle
  return handle

def claim (name : String) (p : Parser) : Build Unit :=
  modify fun builder =>
    { builder with grammar := { builder.grammar with names := (name, p.id) :: builder.grammar.names } }

def pattern (source : String) : Build Parser :=
  match Pattern.ofString? source with
  | some p => parser (.prim (.pattern p))
  | none => refuse (.pattern source)

def arithmetic (whole : Bool) : Build Parser := do
  let base := (← rules).length
  let _ ← addRules (Calculator.rules base)
  parser (.detached (if whole then Calculator.calculator base else Calculator.expression base))

end Build
end ParseEngine
