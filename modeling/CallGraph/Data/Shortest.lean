import CallGraph.Data.Decimal

/-!
# Shortest decimals

The fewest digits that read back as a given binary number, and of those the digits nearest to it.
A decimal reads back if it is nearer to the number than half the way to its neighbours, or just
half the way if the significand is even.
-/

namespace CallGraph.Binary

/-- A quotient of whole numbers. -/
structure Ratio where
  /-- The numerator. -/
  numerator : Nat
  /-- The denominator. -/
  denominator : Nat

namespace Ratio

/-- The quotient of a ratio and a power of ten. -/
def shift (ratio : Ratio) (exponent : Int) : Ratio :=
  ⟨ratio.numerator * Nat.pow 10 (-exponent).toNat, ratio.denominator * Nat.pow 10 exponent.toNat⟩

/-- The power of ten of the leading digit of a positive ratio. -/
def leadingPlace (ratio : Ratio) : Int :=
  if ratio.denominator ≤ ratio.numerator then
    (decimalLength (ratio.numerator / ratio.denominator) : Int) - 1
  else
    let places := decimalLength ratio.denominator - decimalLength ratio.numerator
    if ratio.denominator ≤ ratio.numerator * Nat.pow 10 places then -(places : Int)
    else -(places : Int) - 1

end Ratio

/-- A number of quarters of the last place of a binary number. -/
def quarters (number : Binary) (count : Nat) : Ratio :=
  let power := number.power - 2
  ⟨count * Nat.pow 2 power.toNat, Nat.pow 2 (-power).toNat⟩

/-- Whether a whole number of times a power of ten reads back as a binary number. -/
def readsBack (number : Binary) (digits : Nat) (exponent : Int) : Bool :=
  let isLeast := number.significand == leastFull && leastPower < number.power
  let low := (number.quarters (4 * number.significand - if isLeast then 1 else 2)).shift exponent
  let high := (number.quarters (4 * number.significand + 2)).shift exponent
  let above := digits * low.denominator
  let below := digits * high.denominator
  if number.significand % 2 = 0 then low.numerator ≤ above && below ≤ high.numerator
  else low.numerator < above && below < high.numerator

/-- The multiple of a power of ten that is nearest to a binary number among the two next to it
that read back. -/
def onGrid? (number : Binary) (exponent : Int) : Option Nat :=
  let ratio := (number.quarters (4 * number.significand)).shift exponent
  let floor := ratio.numerator / ratio.denominator
  match number.readsBack floor exponent, number.readsBack (floor + 1) exponent with
  | true, true => some (roundQuotient ratio.numerator ratio.denominator)
  | true, false => some floor
  | false, true => some (floor + 1)
  | false, false => none

/-- Digits without trailing zeros, and their power of ten. -/
def dropZeros : Nat → Nat → Int → Nat × Int
  | 0, digits, exponent => (digits, exponent)
  | fuel + 1, digits, exponent =>
      if digits % 10 = 0 then dropZeros fuel (digits / 10) (exponent + 1) else (digits, exponent)

/-- The shortest decimal that reads back as a positive binary number: digits and a power of
ten.  Seventeen digits always suffice. -/
def shortest (number : Binary) : Nat × Int :=
  let place := (number.quarters (4 * number.significand)).leadingPlace
  let found := (List.range 17).findSome? fun (further : Nat) =>
    let exponent := place - (further : Int)
    (number.onGrid? exponent).map fun digits => (digits, exponent)
  match found with
  | some (digits, exponent) => dropZeros 17 digits exponent
  | none => (0, 0)

end CallGraph.Binary
