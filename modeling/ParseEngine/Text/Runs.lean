namespace ParseEngine.Text

/-- Code points in increasing order, as alternating lengths of a gap and of a block of members. -/
abbrev Runs := List Nat

namespace Runs

def contains : Runs → Nat → Bool
  | gap :: size :: rest, n =>
      if n < gap then false
      else if n - gap < size then true
      else contains rest (n - gap - size)
  | _, _ => false

end Runs
end ParseEngine.Text
