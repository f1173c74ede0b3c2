namespace ParseEngine

/-- What the bits of a floating-point number denote. A finite number is `mantissa · 2 ^ exponent`. -/
inductive Binary64 where
  | finite (negative : Bool) (mantissa : Nat) (exponent : Int)
  | infinite (negative : Bool)
  | nan
  deriving DecidableEq, Repr

namespace Binary64

def ofFloat (x : Float) : Binary64 :=
  let bits := x.toBits.toNat
  let negative := decide (1 <<< 63 ≤ bits)
  let field := (bits >>> 52) % 2048
  let fraction := bits % (1 <<< 52)
  if field = 2047 then
    if fraction = 0 then .infinite negative else .nan
  else if field = 0 then .finite negative fraction (-1074)
  else .finite negative ((1 <<< 52) + fraction) (Int.ofNat field - 1075)

def divideToEven (numerator denominator : Nat) : Nat :=
  let quotient := numerator / denominator
  let twice := 2 * (numerator % denominator)
  if twice < denominator || (twice == denominator && quotient % 2 == 0) then quotient else quotient + 1

def scaleDown (numerator denominator : Nat) (exponent : Int) : Nat × Nat :=
  (numerator <<< (-exponent).toNat, denominator <<< exponent.toNat)

/-- The bits of the nearest floating-point number to a positive fraction, without its sign. Past the greatest
finite number they are those of infinity. -/
def nearestBits (numerator denominator : Nat) : Nat :=
  let guess : Int := Int.ofNat numerator.log2 - Int.ofNat denominator.log2 - 53
  let (above, below) := scaleDown numerator denominator guess
  let fitted := if above / below < 1 <<< 53 then guess else guess + 1
  let exponent := max fitted (-1074)
  let (above, below) := scaleDown numerator denominator exponent
  min (((exponent + 1074).toNat <<< 52) + divideToEven above below) (2047 <<< 52)

def nearest (negative : Bool) (numerator denominator : Nat) : Float :=
  let bits := if numerator = 0 then 0 else nearestBits numerator denominator
  Float.ofBits (UInt64.ofNat (if negative then (1 <<< 63) + bits else bits))

end Binary64
end ParseEngine
