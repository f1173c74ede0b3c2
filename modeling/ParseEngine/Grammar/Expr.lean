import ParseEngine.Prim
import ParseEngine.Runner.Adapter
import ParseEngine.Runner.Interceptor
import ParseEngine.Steps.Script

/-!
Parsers as expressions over the rules of a grammar. Everything that has an identity of its own in a session,
that is memoized or refers to itself, is a rule and is mentioned by its number.
-/

namespace ParseEngine

/-- `detached` runs without the context of the cursor and restores it afterwards. -/
inductive Expr where
  | prim (p : Prim)
  | adapt (adapter : Adapter) (p : Expr)
  | chain (p : Expr) (next : Value → Expr)
  | pair (a b : Expr)
  | orElse (a b : Expr)
  | many (required : Bool) (p : Expr)
  | count (n : Nat) (p : Expr)
  | sepBy (required : Bool) (item separator : Expr)
  | foldLeft (term op : Expr) (f : Value → Value → Value → Value)
  | sequence (parts : List Expr)
  | choice (alternatives : List Expr)
  | rule (r : Nat)
  | detached (p : Expr)
  | steps (parts : List Expr) (script : List Stmt)
  | intercept (interceptor : Interceptor) (p : Expr)

inductive Mode where
  | plain
  | memo
  | leftRecursive
  deriving DecidableEq, Repr

def Mode.kind : Mode → Kind
  | .plain => .recursive
  | .memo => .memoized
  | .leftRecursive => .leftRecursive

structure Rule where
  mode : Mode
  title : String
  body : Expr

structure Grammar where
  rules : List Rule := []
  names : List (String × ParserId) := []

namespace Expr

def skip (a b : Expr) : Expr :=
  .adapt (.map fun | .pair v _ => v | _ => .unit) (.pair a b)

def skipThen (a b : Expr) : Expr :=
  .adapt (.map fun | .pair _ v => v | _ => .unit) (.pair a b)

def lexeme (p : Expr) : Expr :=
  skip p (.prim .spaces)

def between (opening p closing : Expr) : Expr :=
  skip (skipThen opening p) closing

def mapTo (v : Value) (p : Expr) : Expr :=
  .adapt (.map fun _ => v) p

def kind (rules : List Rule) : Expr → Kind
  | .prim p => p.kind
  | .adapt adapter p => adapter.kind (p.kind rules)
  | .chain .. => .chain
  | .pair .. => .sequence
  | .orElse .. => .or
  | .many .. => .many
  | .count .. => .many
  | .sepBy .. => .sepBy
  | .foldLeft .. => .many
  | .sequence _ => .sequence
  | .choice _ => .choice
  | .rule r => (rules[r]?.map (·.mode.kind)).getD .recursive
  | .detached p => p.kind rules
  | .steps .. => .stepSequence
  | .intercept .. => .intercepted

mutual
def description (rules : List Rule) : Expr → String
  | .prim p => p.description
  | .adapt adapter p => adapter.description (p.description rules)
  | .chain p _ => p.description rules
  | .pair a b => a.description rules ++ " " ++ b.description rules
  | .orElse a b => a.description rules ++ " or " ++ b.description rules
  | .many required p => (if required then "many1(" else "many(") ++ p.description rules ++ ")"
  | .count n p => s!"{n} x " ++ p.description rules
  | .sepBy _ item separator => item.description rules ++ " separated by " ++ separator.description rules
  | .foldLeft term _ _ => "chain of " ++ term.description rules
  | .sequence parts => " ".intercalate (descriptions rules parts)
  | .choice alternatives => " or ".intercalate (descriptions rules alternatives)
  | .rule r => (rules[r]?.map (·.title)).getD ""
  | .detached p => p.description rules
  | .steps .. => "step sequence"
  | .intercept _ p => p.description rules

def descriptions (rules : List Rule) : List Expr → List String
  | [] => []
  | p :: rest => p.description rules :: descriptions rules rest
end

def notFollowedBy (rules : List Rule) (p : Expr) : Expr :=
  .adapt (.unless (p.description rules)) p

end Expr

namespace Grammar

def identify (g : Grammar) (name : String) : ParserId :=
  (g.names.lookup name).getD (.unclaimed name)

end Grammar
end ParseEngine
