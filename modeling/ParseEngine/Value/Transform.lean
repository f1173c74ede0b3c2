import ParseEngine.Value.Basic

/-!
Named functions and predicates on values, for grammars that are given as data. A function applied to a value
of another shape than it expects yields the unit value; a predicate does not hold of it.
-/

namespace ParseEngine

namespace Value

def size : Value → Value
  | .list items => ofIndex items.length
  | .text s => ofIndex s.length
  | _ => .unit

def operate (sign : String) (a b : Int64) : Value :=
  if sign = "+" then .int (a + b)
  else if sign = "-" then .int (a - b)
  else if sign = "*" then .int (a * b)
  else .unit

def operateOn : Value → Value
  | .list [.int a, op, .int b] => operate op.asText a b
  | .pair (.pair (.int a) op) (.int b) => operate op.asText a b
  | _ => .unit

def digit : Value → Value
  | .char c => if c.isDigit then ofIndex (c.toNat - '0'.toNat) else .unit
  | _ => .unit

end Value

inductive Transform where
  | identity
  | constant (v : Value)
  | tag (t : Value)
  | wrap
  | first
  | second
  | concat
  | size
  | add
  | sub
  | mul
  | operate
  | push
  | digit
  | increment
  | orElse (v : Value)
  | compose (steps : List Transform)
  | unknown
  deriving Inhabited

namespace Transform

mutual
def apply : Transform → Value → Value
  | .identity, v => v
  | .constant w, _ => w
  | .tag t, v => .list [t, v]
  | .wrap, v => .list [v]
  | .first, .pair a _ => a
  | .second, .pair _ b => b
  | .concat, v => .text v.asText
  | .size, v => v.size
  | .add, .pair (.int a) (.int b) => .int (a + b)
  | .sub, .pair (.int a) (.int b) => .int (a - b)
  | .mul, .pair (.int a) (.int b) => .int (a * b)
  | .operate, v => v.operateOn
  | .push, .pair (.list items) v => .list (items ++ [v])
  | .digit, v => v.digit
  | .increment, .int n => .int (n + 1)
  | .orElse w, .absent => w
  | .orElse _, .present v => v
  | .orElse _, v => v
  | .compose steps, v => applyAll steps v
  | _, _ => .unit

def applyAll : List Transform → Value → Value
  | [], v => v
  | f :: rest, v => applyAll rest (f.apply v)
end

end Transform

inductive Test where
  | always
  | never
  | even
  | upper
  | equals (v : Value)
  | not (t : Test)
  | sizeAtLeast (n : Int)
  | within (low high : Char)
  deriving Inhabited

def Test.holds : Test → Value → Bool
  | .always, _ => true
  | .never, _ => false
  | .even, .int n => n % 2 == 0
  | .upper, .char c => c.isUpper
  | .equals w, v => v == w
  | .not t, v => !t.holds v
  | .sizeAtLeast n, v =>
      match v.size with
      | .int size => decide (n ≤ size.toInt)
      | _ => false
  | .within low high, .char c => decide (low ≤ c) && decide (c ≤ high)
  | _, _ => false

end ParseEngine
