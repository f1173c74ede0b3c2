import ParseEngine.Grammar.Builder
import ParseEngine.Value.Transform

namespace ParseEngine

/-- What follows a parser, depending on its value. The parsers it mentions are a list of parts: those of a
switch in the order of its keys, then the one for all other values. -/
inductive Continuation where
  | to
  | count
  | literal
  | switch (keys : List Value)
  | succeed (f : Value → Value)
  | fail
  | context (f : Value → Value)

namespace Continuation

def mostRounds : Int := 1000

def rounds (n : Int64) : Nat :=
  (min n.toInt mostRounds).toNat

def select (v : Value) : List Value → List Expr → Expr
  | key :: keys, part :: parts => if v == key then part else select v keys parts
  | _, part :: _ => part
  | _, [] => .prim (.succeed .unit)

def next (contextual : Bool) (parts : List Expr) : Continuation → Value → Expr
  | .to, v => select v [] parts
  | .count, .int n => .count (rounds n) (select (.int n) [] parts)
  | .count, _ => .prim (.fail "not a count")
  | .literal, v => .prim (.literal v.asText)
  | .switch keys, v => select v keys parts
  | .succeed f, v => .prim (.succeed (f v))
  | .fail, v => .prim (.fail ("rejected " ++ v.inspect))
  | .context f, v =>
      if contextual then
        .skipThen (.prim (.updateContext fun context => f (.pair context v))) (.prim .readContext)
      else .prim (.fail "context chain without a context")

end Continuation

inductive Blueprint where
  | prim (p : Prim)
  | pattern (source : String)
  | adapt (adapter : Adapter) (p : Blueprint)
  | notFollowedBy (p : Blueprint)
  | chain (p : Blueprint) (continuation : Continuation) (parts : List Blueprint)
  | pair (a b : Blueprint)
  | orElse (a b : Blueprint)
  | skip (a b : Blueprint)
  | skipThen (a b : Blueprint)
  | lexeme (p : Blueprint)
  | between (opening p closing : Blueprint)
  | many (required : Bool) (p : Blueprint)
  | count (n : Nat) (p : Blueprint)
  | sepBy (required : Bool) (item separator : Blueprint)
  | foldLeft (term op : Blueprint) (f : Value → Value → Value → Value)
  | sequence (parts : List Blueprint)
  | choice (alternatives : List Blueprint)
  | memo (p : Blueprint)
  | leftRec (p : Blueprint)
  | arithmetic (whole : Bool)
  | steps (parts : List Blueprint) (script : List Stmt)
  | intercept (interceptor : Interceptor) (p : Blueprint)
  | ref (name : String)
  | define (name : String) (value rest : Blueprint)
  | recursive (name : String) (p : Blueprint)
  | leftRecursive (name : String) (p : Blueprint)
  | orphan (name : String) (p : Blueprint)
  | named (name : String) (p : Blueprint)
  | malformed (message : String)

instance : Inhabited Blueprint := ⟨.malformed ""⟩

def Interceptor.counted (n : Nat) : Interceptor → Interceptor
  | .depth _ max => .depth n max
  | .fuel _ max => .fuel n max
  | other => other

abbrev Scope := List (String × Parser)

namespace Blueprint

mutual
/-- Builds the parser of a blueprint. Parsers that read or change the context are refused unless the grammar
is `contextual`. -/
def build (contextual : Bool) (scope : Scope) : Blueprint → Build Parser
  | .prim p =>
      if p.needsContext && !contextual then .refuse (.malformed "context node without a context")
      else .parser (.prim p)
  | .pattern source => .pattern source
  | .adapt adapter p => do .parser (.adapt adapter (← build contextual scope p).expr)
  | .notFollowedBy p => do
      let p ← build contextual scope p
      .parser (.notFollowedBy (← Build.rules) p.expr)
  | .chain p continuation parts => do
      let p ← build contextual scope p
      let parts ← buildAll contextual scope parts
      .parser (.chain p.expr (continuation.next contextual parts))
  | .pair a b => do
      let a ← build contextual scope a
      let b ← build contextual scope b
      .parser (.pair a.expr b.expr)
  | .orElse a b => do
      let a ← build contextual scope a
      let b ← build contextual scope b
      .parser (.orElse a.expr b.expr)
  | .skip a b => do
      let a ← build contextual scope a
      let b ← build contextual scope b
      .parser (.skip a.expr b.expr)
  | .skipThen a b => do
      let a ← build contextual scope a
      let b ← build contextual scope b
      .parser (.skipThen a.expr b.expr)
  | .lexeme p => do .parser (.lexeme (← build contextual scope p).expr)
  | .between opening p closing => do
      let opening ← build contextual scope opening
      let p ← build contextual scope p
      let closing ← build contextual scope closing
      .parser (.between opening.expr p.expr closing.expr)
  | .many required p => do .parser (.many required (← build contextual scope p).expr)
  | .count n p => do .parser (.count n (← build contextual scope p).expr)
  | .sepBy required item separator => do
      let item ← build contextual scope item
      let separator ← build contextual scope separator
      .parser (.sepBy required item.expr separator.expr)
  | .foldLeft term op f => do
      let term ← build contextual scope term
      let op ← build contextual scope op
      .parser (.foldLeft term.expr op.expr f)
  | .sequence parts => do .parser (.sequence (← buildAll contextual scope parts))
  | .choice alternatives => do .parser (.choice (← buildAll contextual scope alternatives))
  | .memo p => do .wrap .memo (← build contextual scope p)
  | .leftRec p => do .wrap .leftRecursive (← build contextual scope p)
  | .arithmetic whole => .arithmetic whole
  | .steps parts script => do .parser (.steps (← buildAll contextual scope parts) script)
  | .intercept interceptor p => do
      let p ← build contextual scope p
      .parser (.intercept (interceptor.counted (← Build.counter)) p.expr)
  | .ref name =>
      match scope.lookup name with
      | some p => return p
      | none => .refuse (.malformed "unknown name")
  | .define name value rest => do
      let value ← build contextual scope value
      build contextual ((name, value) :: scope) rest
  | .recursive name p => .recursive fun self => build contextual ((name, self) :: scope) p
  | .leftRecursive name p => .leftRecursive fun self => build contextual ((name, self) :: scope) p
  | .orphan name p => .orphan fun self => build contextual ((name, self) :: scope) p
  | .named name p => do
      let p ← build contextual scope p
      Build.claim name p
      return p
  | .malformed message => .refuse (.malformed message)

def buildAll (contextual : Bool) (scope : Scope) : List Blueprint → Build (List Expr)
  | [] => return []
  | p :: rest => do
      let p ← build contextual scope p
      return p.expr :: (← buildAll contextual scope rest)
end

def buildNamed (contextual : Bool) : Scope → List (String × Blueprint) → Build Scope
  | scope, [] => return scope
  | scope, (name, p) :: rest => do
      let p ← build contextual scope p
      buildNamed contextual ((name, p) :: scope) rest

def grammar? (contextual : Bool) (p : Blueprint) : Except BuildError (Parser × Grammar) := do
  let (root, builder) ← build contextual [] p |>.run {}
  return (root, builder.grammar)

end Blueprint
end ParseEngine
