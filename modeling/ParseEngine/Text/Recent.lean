import ParseEngine.Text.Runs

/-!
The newest characters. Letters, numbers and printable characters go by version 17 of the Unicode standard.
Patterns go by version 16, in which the code points below are unassigned and belong to no class.
-/

namespace ParseEngine.Text

/-- The code points that version 17 assigned. -/
def recentRuns : Runs :=
  [2191, 1, 972, 1, 127, 1, 3570, 15, 2, 12, 1493, 1, 2772, 1, 31799, 2, 2, 1, 1, 1, 28, 1, 21457,
   16, 445, 2, 54, 7, 2929, 26, 1387, 3, 8, 9, 33, 2, 3172, 8, 584, 44, 4, 10, 20662, 25, 2, 25,
   286, 5, 6145, 8, 1289, 22, 97, 115, 16135, 3, 445, 23, 15, 17, 6095, 31, 1, 22, 8, 2, 4056, 1,
   158, 4, 341, 9, 379, 4, 50, 1, 3, 1, 57, 1, 4, 1, 28, 1, 4, 1, 266, 1, 47935, 6, 5986, 12, 21762,
   4298]

def isRecent (c : Char) : Bool :=
  recentRuns.contains c.toNat

end ParseEngine.Text
