import ParseEngine.Grammar.Expr

/-!
A calculator for floating-point arithmetic.

    expression := expression ('+' | '-') term | term
    term       := term ('*' | '/') factor | factor
    factor     := number | '(' expression ')'

Both levels are left-recursive rules, so operators of one level group to the left. White space may follow
every token and stand before the whole.
-/

namespace ParseEngine.Calculator

def apply (op : Char) (a b : Float) : Float :=
  match op with
  | '+' => a + b
  | '-' => a - b
  | '*' => a * b
  | _ => a / b

def applyValue : Value → Value
  | .pair (.pair (.float a) (.char op)) (.float b) => .float (apply op a b)
  | _ => .unit

def token (c : Char) : Expr :=
  .lexeme (.prim (.char c))

def level (self : Nat) (operators : String) (operand : Expr) : Rule :=
  let body := .orElse
    (.adapt (.map applyValue)
      (.pair (.pair (.adapt .forward (.rule self)) (.lexeme (.prim (.oneOf operators)))) operand))
    operand
  { mode := .leftRecursive, title := body.description [], body }

/-- The expression, where its two rules have the numbers `base` and `base + 1`. -/
def expression (base : Nat) : Expr :=
  .adapt (.describe "expression") (.rule (base + 1))

def factor (base : Nat) : Expr :=
  .adapt (.label "Expected number or '('")
    (.orElse (.lexeme (.prim .number))
      (.between (token '(') (.adapt .forward (expression base)) (token ')')))

def term (base : Nat) : Expr :=
  .adapt (.describe "term") (.rule base)

def rules (base : Nat) : List Rule :=
  [level base "*/" (factor base), level (base + 1) "+-" (term base)]

def calculator (base : Nat) : Expr :=
  .skipThen (.prim .spaces) (expression base)

def grammar : Grammar :=
  { rules := rules 0 }

end ParseEngine.Calculator
