namespace ParseEngine

inductive Kind where
  | literal
  | regex
  | satisfy
  | pure
  | fail
  | endOfInput
  | context
  | map
  | chain
  | or
  | sequence
  | choice
  | many
  | optional
  | sepBy
  | lookahead
  | notFollowedBy
  | filter
  | label
  | tagged
  | attempt
  | recursive
  | memoized
  | leftRecursive
  | stepSequence
  | intercepted
  | custom
  deriving DecidableEq, Repr

def Kind.name : Kind → String
  | .literal => "Literal"
  | .regex => "Regex"
  | .satisfy => "Satisfy"
  | .pure => "Pure"
  | .fail => "Fail"
  | .endOfInput => "EndOfInput"
  | .context => "Context"
  | .map => "Map"
  | .chain => "Chain"
  | .or => "Or"
  | .sequence => "Sequence"
  | .choice => "Choice"
  | .many => "Many"
  | .optional => "Optional"
  | .sepBy => "SepBy"
  | .lookahead => "Lookahead"
  | .notFollowedBy => "NotFollowedBy"
  | .filter => "Filter"
  | .label => "Label"
  | .tagged => "Tagged"
  | .attempt => "Attempt"
  | .recursive => "Recursive"
  | .memoized => "Memoized"
  | .leftRecursive => "LeftRecursive"
  | .stepSequence => "StepSequence"
  | .intercepted => "Intercepted"
  | .custom => "Custom"

end ParseEngine
