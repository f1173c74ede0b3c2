import ParseEngine.Text.Runs

namespace ParseEngine.Text

def blankRuns : Runs :=
  [9, 5, 18, 1, 100, 1, 26, 1, 5599, 1, 2431, 11, 29, 2, 5, 1, 47, 1, 4000, 1]

def isBlank (c : Char) : Bool :=
  blankRuns.contains c.toNat

end ParseEngine.Text
