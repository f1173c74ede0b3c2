import ParseEngine.Decimal.Binary64

/-!
The shortest decimal for a floating-point number: of the decimals that read back as the number, those with
the fewest digits, and of these the one nearest to the number. Of two equally near the greater is taken.
-/

namespace ParseEngine

structure Decimal where
  digits : Nat
  exponent : Int
  deriving DecidableEq, Repr

namespace Decimal

structure Interval where
  low : Nat
  value : Nat
  high : Nat
  denominator : Nat
  closed : Bool

/-- The numbers closer to `mantissa · 2 ^ exponent` than to either neighbour. Below a power of two the gap is
half as wide. The ends belong to the interval when the mantissa is even. -/
def Interval.around (mantissa : Nat) (exponent : Int) : Interval :=
  let scale := 1 <<< (exponent - 2).toNat
  let below := if mantissa = 1 <<< 52 ∧ -1074 < exponent then 1 else 2
  { low := (4 * mantissa - below) * scale
    value := 4 * mantissa * scale
    high := (4 * mantissa + 2) * scale
    denominator := 1 <<< (2 - exponent).toNat
    closed := mantissa % 2 == 0 }

def Interval.holds (interval : Interval) (above below digits : Nat) : Bool :=
  let point := digits * above * interval.denominator
  let low := interval.low * below
  let high := interval.high * below
  if interval.closed then low ≤ point && point ≤ high else low < point && point < high

def leadingZeros (value denominator : Nat) : Nat → Nat
  | 0 => 0
  | bound + 1 => if denominator ≤ value then 0 else 1 + leadingZeros (10 * value) denominator bound

/-- The place `k` of the decimal point: `10 ^ (k - 1) ≤ value < 10 ^ k`. -/
def Interval.place (interval : Interval) : Int :=
  if interval.denominator ≤ interval.value then
    Int.ofNat (Nat.toDigits 10 (interval.value / interval.denominator)).length
  else 1 - Int.ofNat (leadingZeros interval.value interval.denominator 400)

def Interval.withDigits? (interval : Interval) (count : Nat) : Option Decimal :=
  let exponent := interval.place - Int.ofNat count
  let above := Nat.pow 10 exponent.toNat
  let below := Nat.pow 10 (-exponent).toNat
  let numerator := interval.value * below
  let step := above * interval.denominator
  let down := numerator / step
  let up := down + 1
  let nearerUp := step ≤ 2 * (numerator - down * step)
  match interval.holds above below down, interval.holds above below up with
  | true, true => some ⟨if nearerUp then up else down, exponent⟩
  | true, false => some ⟨down, exponent⟩
  | false, true => some ⟨up, exponent⟩
  | false, false => none

def trim (digits : Nat) (exponent : Int) : Nat → Decimal
  | 0 => ⟨digits, exponent⟩
  | bound + 1 =>
      if digits % 10 = 0 ∧ digits ≠ 0 then trim (digits / 10) (exponent + 1) bound else ⟨digits, exponent⟩

/-- Seventeen digits always suffice. -/
def mostDigits : Nat := 17

def shortest (mantissa : Nat) (exponent : Int) : Decimal :=
  if mantissa = 0 then ⟨0, 0⟩
  else
    let interval := Interval.around mantissa exponent
    match (List.range' 1 mostDigits).findSome? interval.withDigits? with
    | some found => trim found.digits found.exponent mostDigits
    | none => ⟨0, 0⟩

end Decimal
end ParseEngine
