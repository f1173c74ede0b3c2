import ParseEngine.Text.Blank
import ParseEngine.Text.Case
import ParseEngine.Text.Recent
import ParseEngine.Text.Word

namespace ParseEngine.Pattern

abbrev CharSet := Char → Bool

namespace CharSet

def single (c : Char) : CharSet := fun d => d == c

def range (low high : Char) : CharSet := fun d => decide (low ≤ d) && decide (d ≤ high)

def none : CharSet := fun _ => false

def any : CharSet := fun _ => true

def union (s t : CharSet) : CharSet := fun c => s c || t c

def inter (s t : CharSet) : CharSet := fun c => s c && t c

def diff (s t : CharSet) : CharSet := fun c => s c && !t c

def symmDiff (s t : CharSet) : CharSet := fun c => s c != t c

def compl (s : CharSet) : CharSet := fun c => !s c

def negateIf (negated : Bool) (s : CharSet) : CharSet :=
  if negated then s.compl else s

def caseVariants (wide : Bool) (c : Char) : List Char :=
  if wide then Text.caseVariants c else [c.toLower, c.toUpper]

def foldCase (wide : Bool) (s : CharSet) : CharSet := fun c => s c || (caseVariants wide c).any s

def word : CharSet := fun c => Text.isWord c && !Text.isRecent c

def decimal : CharSet := fun c => Text.isDecimalDigit c && !Text.isRecent c

def asciiWord : CharSet := fun c => c.isAlphanum || c == '_'

def asciiBlank : CharSet := fun c => c == ' ' || range '\t' '\r' c

def named? (name : String) : Option CharSet :=
  match name with
  | "alnum" => some Char.isAlphanum
  | "alpha" => some Char.isAlpha
  | "ascii" => some (range '\x00' '\x7f')
  | "blank" => some fun c => c == ' ' || c == '\t'
  | "cntrl" => some fun c => range '\x00' '\x1f' c || c == '\x7f'
  | "digit" => some Char.isDigit
  | "graph" => some (range '!' '~')
  | "lower" => some Char.isLower
  | "print" => some (range ' ' '~')
  | "punct" => some fun c => range '!' '~' c && !c.isAlphanum
  | "space" => some asciiBlank
  | "upper" => some Char.isUpper
  | "word" => some asciiWord
  | "xdigit" => some fun c => c.isDigit || range 'a' 'f' c || range 'A' 'F' c
  | _ => Option.none

end CharSet

inductive Look where
  | textStart
  | textEnd
  | lineStart
  | lineEnd
  | breakStart
  | breakEnd
  | boundary (word : CharSet)
  | inside (word : CharSet)
  | wordStart (word : CharSet)
  | wordEnd (word : CharSet)
  | halfStart (word : CharSet)
  | halfEnd (word : CharSet)

def Look.holds (before after : Option Char) : Look → Bool
  | .textStart => before.isNone
  | .textEnd => after.isNone
  | .lineStart => before.isNone || before == some '\n'
  | .lineEnd => after.isNone || after == some '\n'
  | .breakStart => before.isNone || before == some '\n' || (before == some '\r' && after != some '\n')
  | .breakEnd => after.isNone || after == some '\r' || (after == some '\n' && before != some '\r')
  | .boundary word => before.any word != after.any word
  | .inside word => before.any word == after.any word
  | .wordStart word => !before.any word && after.any word
  | .wordEnd word => before.any word && !after.any word
  | .halfStart word => !before.any word
  | .halfEnd word => !after.any word

/-- Patterns. Of two alternatives the first is preferred; a greedy repetition prefers to go on. -/
inductive Tree where
  | empty
  | one (set : CharSet)
  | look (condition : Look)
  | both (first second : Tree)
  | either (first second : Tree)
  | times (least : Nat) (most : Option Nat) (greedy : Bool) (body : Tree)

def Tree.leastLength : Tree → Nat
  | .empty => 0
  | .one _ => 1
  | .look _ => 0
  | .both a b => a.leastLength + b.leastLength
  | .either a b => min a.leastLength b.leastLength
  | .times least _ _ body => least * body.leastLength

end ParseEngine.Pattern
