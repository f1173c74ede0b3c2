import ParseEngine.Pattern.Tree

namespace ParseEngine.Pattern

inductive Instruction where
  | one (set : CharSet) (next : Nat)
  | look (condition : Look) (next : Nat)
  | fork (first second : Nat)
  | accept

structure Program where
  code : Array Instruction
  entry : Nat

namespace Program

def choose (greedy : Bool) (body leave : Nat) : Instruction :=
  if greedy then .fork body leave else .fork leave body

def emit (code : Array Instruction) (instruction : Instruction) : Nat × Array Instruction :=
  (code.size, code.push instruction)

/-- Adds code for the tree that goes on at `next`, and gives the number of its first instruction.

A repetition without an upper bound ends in a loop. When its body can match nothing, the loop is entered
through a fork of its own, so that a round that matched nothing leaves the loop where it entered it. -/
def compile : Tree → Nat → Array Instruction → Nat × Array Instruction
  | .empty, next, code => (next, code)
  | .one set, next, code => emit code (.one set next)
  | .look condition, next, code => emit code (.look condition next)
  | .both a b, next, code =>
      let (second, code) := compile b next code
      compile a second code
  | .either a b, next, code =>
      let (first, code) := compile a next code
      let (second, code) := compile b next code
      emit code (.fork first second)
  | .times least (some most) greedy body, next, code =>
      let (options, code) := Nat.repeat (fun (entry, code) =>
        let (start, code) := compile body entry code
        emit code (choose greedy start next)) (most - least) (next, code)
      Nat.repeat (fun (entry, code) => compile body entry code) least (options, code)
  | .times least none greedy body, next, code =>
      let (loop, code) := emit code .accept
      let (start, code) := compile body loop code
      let code := code.set! loop (choose greedy start next)
      if least = 0 then
        if body.leastLength = 0 then emit code (choose greedy start next) else (loop, code)
      else Nat.repeat (fun (entry, code) => compile body entry code) (least - 1) (start, code)

def lengthOf : Tree → Nat
  | .empty => 0
  | .one _ => 1
  | .look _ => 1
  | .both a b => lengthOf a + lengthOf b
  | .either a b => lengthOf a + lengthOf b + 1
  | .times least (some most) _ body => (most - least) * (lengthOf body + 1) + least * lengthOf body
  | .times least none _ body =>
      if least = 0 then 1 + lengthOf body + (if body.leastLength = 0 then 1 else 0)
      else 1 + lengthOf body + (least - 1) * lengthOf body

def ofTree (tree : Tree) : Program :=
  let (entry, code) := compile tree 0 #[.accept]
  { code, entry }

end Program
end ParseEngine.Pattern
