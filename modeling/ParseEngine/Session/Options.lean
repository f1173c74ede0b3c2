namespace ParseEngine

/-- Whether the whole text must be consumed, and the most passes that may grow one seed. Without a bound the
passes are bounded by the length of the remaining text plus one. -/
structure Options where
  consumeAll : Bool := true
  growthBound : Option Nat := none
  deriving DecidableEq, Repr

namespace Options

def withConsumeAll (options : Options) (consumeAll : Bool) : Options :=
  { options with consumeAll }

def withGrowthBound (options : Options) (bound : Nat) : Options :=
  { options with growthBound := some bound }

def boolText (b : Bool) : String :=
  if b then "true" else "false"

def inspect (options : Options) : String :=
  let bound := match options.growthBound with
    | none => "None"
    | some n => s!"Some({n})"
  s!"ParseOptions \x7b consume_all: " ++ boolText options.consumeAll ++
    s!", max_growth_passes: {bound} \x7d"

def render (options : Options) : String :=
  let bound := match options.growthBound with
    | none => "null"
    | some n => toString n
  "\x7b\"consume_all\":" ++ boolText options.consumeAll ++ ",\"max_growth_passes\":" ++ bound ++ "\x7d"

end Options
end ParseEngine
