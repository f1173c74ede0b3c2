import ParseEngine.Decimal.Shortest

namespace ParseEngine.Decimal

def digitsOf (n : Nat) : List Char :=
  Nat.toDigits 10 n

def plain (point : Bool) (d : Decimal) : List Char :=
  let digits := digitsOf d.digits
  if 0 ≤ d.exponent then
    let zeros := if d.digits = 0 then [] else List.replicate d.exponent.toNat '0'
    digits ++ zeros ++ (if point then ['.', '0'] else [])
  else
    let places := (-d.exponent).toNat
    if places < digits.length then
      digits.take (digits.length - places) ++ '.' :: digits.drop (digits.length - places)
    else '0' :: '.' :: List.replicate (places - digits.length) '0' ++ digits

def scientific (d : Decimal) : List Char :=
  let digits := digitsOf d.digits
  let exponent := d.exponent + Int.ofNat digits.length - 1
  let fraction := if digits.length = 1 then [] else '.' :: digits.drop 1
  digits.take 1 ++ fraction ++ 'e' :: (toString exponent).toList

def isExtreme (d : Decimal) : Bool :=
  let place := d.exponent + Int.ofNat (digitsOf d.digits).length
  d.digits ≠ 0 && (place > 16 || place < -3)

def signed (negative : Bool) (digits : List Char) : String :=
  String.ofList (if negative then '-' :: digits else digits)

end ParseEngine.Decimal

namespace ParseEngine

open Decimal

/-- A floating-point number written out in full: the fewest digits that read back, never an exponent. -/
def Binary64.display (x : Float) : String :=
  match Binary64.ofFloat x with
  | .nan => "NaN"
  | .infinite negative => if negative then "-inf" else "inf"
  | .finite negative mantissa exponent => signed negative (plain false (shortest mantissa exponent))

/-- A floating-point number that shows itself as one: a whole number keeps a zero after its point, and very
large and very small numbers have an exponent. -/
def Binary64.inspect (x : Float) : String :=
  match Binary64.ofFloat x with
  | .nan => "NaN"
  | .infinite negative => if negative then "-inf" else "inf"
  | .finite negative mantissa exponent =>
      let decimal := shortest mantissa exponent
      signed negative (if decimal.isExtreme then scientific decimal else plain true decimal)

end ParseEngine
