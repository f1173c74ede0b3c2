import ParseEngine.Decimal.Layout
import ParseEngine.Text.Quoted

/-!
The values that parsers yield, how they compare, and their two written forms: `text` is what a value
contributes to a concatenation, `inspect` shows its structure.
-/

namespace ParseEngine

structure Frame where
  step : Nat
  description : String
  value : String
  position : Nat
  deriving DecidableEq, Repr

def Frame.line (frame : Frame) : String :=
  s!"#{frame.step} {frame.description} = {frame.value} @ {frame.position}"

def Frame.inspect (frame : Frame) : String :=
  s!"ExecutionFrame \x7b step: {frame.step}, description: " ++ Text.quoteString frame.description ++
    ", value: " ++ Text.quoteString frame.value ++ s!", position: {frame.position} \x7d"

/-- Values of grammars. Integers have 64 bits and wrap. -/
inductive Value where
  | unit
  | bool (b : Bool)
  | char (c : Char)
  | text (s : String)
  | int (n : Int64)
  | float (x : Float)
  | list (items : List Value)
  | pair (first second : Value)
  | absent
  | present (v : Value)
  | frame (f : Frame)

instance : Inhabited Value := ⟨.unit⟩

namespace Value

mutual
/-- Structural equality; as floating-point numbers have it, NaN differs from itself. -/
def same : Value → Value → Bool
  | .unit, .unit => true
  | .bool a, .bool b => a == b
  | .char a, .char b => a == b
  | .text a, .text b => a == b
  | .int a, .int b => a == b
  | .float a, .float b => a == b
  | .list xs, .list ys => sameItems xs ys
  | .pair a b, .pair c d => same a c && same b d
  | .absent, .absent => true
  | .present a, .present b => same a b
  | .frame a, .frame b => a == b
  | _, _ => false

def sameItems : List Value → List Value → Bool
  | [], [] => true
  | x :: xs, y :: ys => same x y && sameItems xs ys
  | _, _ => false
end

instance : BEq Value := ⟨same⟩

mutual
def asText : Value → String
  | .char c => c.toString
  | .text s => s
  | .int n => toString n.toInt
  | .list items => itemsText items
  | .pair a b => asText a ++ asText b
  | .present v => asText v
  | _ => ""

def itemsText : List Value → String
  | [] => ""
  | v :: rest => asText v ++ itemsText rest
end

mutual
def inspect : Value → String
  | .unit => "()"
  | .bool b => if b then "true" else "false"
  | .char c => Text.quoteChar c
  | .text s => Text.quoteString s
  | .int n => toString n.toInt
  | .float x => Binary64.inspect x
  | .list items => "[" ++ ", ".intercalate (inspectItems items) ++ "]"
  | .pair a b => "(" ++ inspect a ++ ", " ++ inspect b ++ ")"
  | .absent => "None"
  | .present v => "Some(" ++ inspect v ++ ")"
  | .frame f => f.inspect

def inspectItems : List Value → List String
  | [] => []
  | v :: rest => inspect v :: inspectItems rest
end

def ofIndex (n : Nat) : Value :=
  .int (Int64.ofNat n)

def ofOption : Option Value → Value
  | none => .absent
  | some v => .present v

end Value
end ParseEngine
