import ParseEngine.Decimal.Shortest

namespace ParseEngine.Decimal

/-- Decimals at or above `10 ^ 400` are read as infinity, those below `10 ^ -400` as zero. -/
def outermostPlace : Int := 400

def toFloat (negative : Bool) (d : Decimal) : Float :=
  let place := d.exponent + Int.ofNat (Nat.toDigits 10 d.digits).length
  if d.digits = 0 ∨ place < -outermostPlace then Binary64.nearest negative 0 1
  else if outermostPlace < place then Binary64.nearest negative (Nat.pow 10 outermostPlace.toNat) 1
  else Binary64.nearest negative (d.digits * Nat.pow 10 d.exponent.toNat) (Nat.pow 10 (-d.exponent).toNat)

end ParseEngine.Decimal
