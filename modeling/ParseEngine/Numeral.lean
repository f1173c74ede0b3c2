import ParseEngine.Decimal.Reading

namespace ParseEngine.Numeral

def sign : List Char → List Char
  | '+' :: _ => ['+']
  | '-' :: _ => ['-']
  | _ => []

def digits (text : List Char) : List Char :=
  text.takeWhile Char.isDigit

def valueOf (digits : List Char) : Nat :=
  digits.foldl (fun n d => 10 * n + (d.toNat - '0'.toNat)) 0

def signedValue (sign digits : List Char) : Int :=
  if sign = ['-'] then -Int.ofNat (valueOf digits) else Int.ofNat (valueOf digits)

def integer? (text : List Char) : Option (List Char × Int) :=
  let mark := sign text
  let run := digits (text.drop mark.length)
  if run.isEmpty then none else some (mark ++ run, signedValue mark run)

/-- The digits of a number before and after its point. The point may stand at either end but not alone. -/
def mantissa? (text : List Char) : Option (List Char × List Char × List Char) :=
  let whole := digits text
  match text.drop whole.length with
  | '.' :: rest =>
      let fraction := digits rest
      if whole.isEmpty && fraction.isEmpty then none else some (whole ++ '.' :: fraction, whole, fraction)
  | _ => if whole.isEmpty then none else some (whole, whole, [])

/-- An exponent with its characters; an exponent without digits is not one. -/
def exponent : List Char → List Char × Int
  | e :: rest =>
      if e = 'e' ∨ e = 'E' then
        match integer? rest with
        | some (taken, n) => (e :: taken, n)
        | none => ([], 0)
      else ([], 0)
  | [] => ([], 0)

def number? (text : List Char) : Option (List Char × Float) := do
  let mark := sign text
  let text := text.drop mark.length
  let (taken, whole, fraction) ← mantissa? text
  let (suffix, power) := exponent (text.drop taken.length)
  let decimal : Decimal := ⟨valueOf (whole ++ fraction), power - Int.ofNat fraction.length⟩
  return (mark ++ taken ++ suffix, decimal.toFloat (mark == ['-']))

end ParseEngine.Numeral
