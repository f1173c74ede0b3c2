import ParseEngine.Kind
import ParseEngine.Numeral
import ParseEngine.Outcome
import ParseEngine.Pattern.Basic

/-!
The parsers that everything else is made of. They read the text at the cursor and touch no session.

A literal that agrees with the text for a while fails where the two part, so that the furthest of several
failures tells which literal came closest.
-/

namespace ParseEngine

inductive Prim where
  | literal (text : String)
  | one (kind : Kind) (description : String) (test : Char → Bool)
  | spaces
  | pattern (p : Pattern)
  | integer
  | number
  | succeed (value : Value)
  | fail (message : String)
  | endOfInput
  | position
  | readContext
  | updateContext (f : Value → Value)
  | failAfter (count : Nat) (message description : String) (found : Option String)
  | orphan

namespace Prim

def char (c : Char) : Prim :=
  .one .literal (Text.quoteChar c) (· == c)

def satisfy (description : String) (test : Char → Bool) : Prim :=
  .one .satisfy description test

def anyChar : Prim :=
  satisfy "any character" fun _ => true

def oneOf (chars : String) : Prim :=
  satisfy ("one of " ++ Text.quoteString chars) fun c => chars.toList.contains c

def noneOf (chars : String) : Prim :=
  satisfy ("none of " ++ Text.quoteString chars) fun c => !chars.toList.contains c

def digit : Prim :=
  satisfy "digit" Char.isDigit

def letter : Prim :=
  satisfy "letter" Text.isLetter

def alphanumeric : Prim :=
  satisfy "letter or digit" fun c => Text.isLetter c || Text.isNumeric c

def whitespace : Prim :=
  satisfy "whitespace" Text.isBlank

def kind : Prim → Kind
  | .literal _ => .literal
  | .one kind _ _ => kind
  | .spaces => .satisfy
  | .pattern _ | .integer | .number => .regex
  | .succeed _ | .position => .pure
  | .fail _ => .fail
  | .endOfInput => .endOfInput
  | .readContext | .updateContext _ => .context
  | .failAfter .. => .custom
  | .orphan => .recursive

def description : Prim → String
  | .literal text => Text.quoteString text
  | .one _ description _ => description
  | .spaces => "spaces"
  | .pattern p => "/" ++ p.source ++ "/"
  | .integer => "integer"
  | .number => "number"
  | .succeed _ => "nothing"
  | .fail message => message
  | .endOfInput => "end of input"
  | .position => "position"
  | .readContext => "context"
  | .updateContext _ => "context update"
  | .failAfter _ _ description _ => description
  | .orphan => "recursive rule"

def needsContext : Prim → Bool
  | .readContext | .updateContext _ => true
  | _ => false

def commonPart : List Char → List Char → List Char
  | a :: as, b :: bs => if a = b then a :: commonPart as bs else []
  | _, _ => []

def expected (description : String) (c : Cursor) : Except Halt Outcome :=
  Outcome.failAt ("Expected " ++ description) c

def runLiteral (text : String) (c : Cursor) : Except Halt Outcome := do
  let rest ← c.remaining
  if text.toList.isPrefixOf rest then
    return .success (.text text) (← c.advance (Text.byteLength text.toList))
  else
    expected (Text.quoteString text) (← c.advance (Text.byteLength (commonPart rest text.toList)))

def runOne (description : String) (test : Char → Bool) (c : Cursor) : Except Halt Outcome := do
  match ← c.remaining with
  | d :: _ =>
      if test d then return .success (.char d) (← c.advance d.utf8Size) else expected description c
  | [] => expected description c

def runSpaces (c : Cursor) : Except Halt Outcome := do
  let blanks := (← c.remaining).takeWhile Text.isBlank
  return .success .unit (← c.advance (Text.byteLength blanks))

def runPattern (p : Pattern) (c : Cursor) : Except Halt Outcome := do
  match p.find? (← c.remaining) with
  | some (skipped, matched) =>
      return .success (.text (String.ofList matched)) (← c.advance (Text.byteLength (skipped ++ matched)))
  | none => expected ("/" ++ p.source ++ "/") c

def fitsInt64 (n : Int) : Bool :=
  decide (Int64.minValue.toInt ≤ n) && decide (n ≤ Int64.maxValue.toInt)

/-- A numeral too large for an integer is a failure where it begins. -/
def runInteger (c : Cursor) : Except Halt Outcome := do
  match Numeral.integer? (← c.remaining) with
  | some (taken, n) =>
      if fitsInt64 n then return .success (.int (Int64.ofInt n)) (← c.advance (Text.byteLength taken))
      else Outcome.failAt ("Invalid integer " ++ Text.quote taken) c
  | none => expected "integer" c

def runNumber (c : Cursor) : Except Halt Outcome := do
  match Numeral.number? (← c.remaining) with
  | some (taken, x) => return .success (.float x) (← c.advance (Text.byteLength taken))
  | none => expected "number" c

def runFailAfter (count : Nat) (message : String) (found : Option String) (c : Cursor) :
    Except Halt Outcome := do
  let stop ← c.advance (Text.byteLength ((← c.remaining).take count))
  match found with
  | some found => return .failure message stop found
  | none => Outcome.failAt message stop

def run : Prim → Cursor → Except Halt Outcome
  | .literal text, c => runLiteral text c
  | .one _ description test, c => runOne description test c
  | .spaces, c => runSpaces c
  | .pattern p, c => runPattern p c
  | .integer, c => runInteger c
  | .number, c => runNumber c
  | .succeed value, c => return .success value c
  | .fail message, c => Outcome.failAt message c
  | .endOfInput, c => if c.isAtEnd then return .success .unit c else expected "end of input" c
  | .position, c => return .success (.ofIndex c.index) c
  | .readContext, c => return .success (c.context.getD .unit) c
  | .updateContext f, c => return .success .unit (c.withContext (f (c.context.getD .unit)))
  | .failAfter count message _ found, c => runFailAfter count message found c
  | .orphan, c => Outcome.failAt "recursive rule invoked before its definition completed" c

end Prim
end ParseEngine
