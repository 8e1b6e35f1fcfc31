/-!
# Decimal numbers

A number with a fraction or an exponent is kept exactly as it was written, as a whole number
times a power of ten with a sign.  It counts as the nearest number with a 53-bit significand and
an 11-bit exponent, ties to even; that number may be whole, may have a fraction, or may be too
large.
-/

namespace CallGraph

/-- The least number that is too large for a signed word of 64 bits. -/
def signedBound : Int := 9223372036854775808

/-- The least number that is too large for an unsigned word of 64 bits. -/
def unsignedBound : Int := 18446744073709551616

/-- The number `digits * 10 ^ exponent` or its negative. -/
structure Decimal where
  /-- Whether there is a minus sign. -/
  negative : Bool
  /-- The digits as a whole number. -/
  digits : Nat
  /-- The power of ten. -/
  exponent : Int
  deriving DecidableEq, Repr

/-- The number `significand * 2 ^ power`; the significand has 53 bits unless the power is the
least one. -/
structure Binary where
  /-- The significand. -/
  significand : Nat
  /-- The power of two. -/
  power : Int
  deriving DecidableEq, Repr

/-- What the binary number nearest to a decimal is. -/
inductive Wholeness where
  /-- A whole number. -/
  | whole (number : Int)
  /-- A number with a fraction. -/
  | fractional
  /-- A number out of range. -/
  | tooLarge
  deriving DecidableEq, Repr

/-- How many decimal digits a positive whole number has. -/
def decimalLength (number : Nat) : Nat := (Nat.toDigits 10 number).length

namespace Binary

/-- Zero. -/
def zero : Binary := ⟨0, 0⟩

/-- The least power of two. -/
def leastPower : Int := -1074

/-- The least significand of full length. -/
def leastFull : Nat := Nat.pow 2 52

/-- The quotient to the nearest whole number, a tie to the even one. -/
def roundQuotient (numerator denominator : Nat) : Nat :=
  let quotient := numerator / denominator
  let twice := 2 * (numerator % denominator)
  if twice < denominator || (twice == denominator && quotient % 2 == 0) then quotient
  else quotient + 1

/-- The binary number nearest to a positive quotient. -/
def nearest (numerator denominator : Nat) : Binary :=
  let estimate : Int := (numerator.log2 : Int) - (denominator.log2 : Int) - 52
  let quotientAt (power : Int) : Nat :=
    numerator * Nat.pow 2 (-power).toNat / (denominator * Nat.pow 2 power.toNat)
  let exact := if quotientAt estimate < leastFull then estimate - 1 else estimate
  let power := max exact leastPower
  let significand :=
    roundQuotient (numerator * Nat.pow 2 (-power).toNat) (denominator * Nat.pow 2 power.toNat)
  if significand = 2 * leastFull then ⟨leastFull, power + 1⟩ else ⟨significand, power⟩

/-- Whether a binary number is beyond the range of the exponent. -/
def isTooLarge (number : Binary) : Bool :=
  0 ≤ number.power && number.significand * Nat.pow 2 number.power.toNat ≥ Nat.pow 2 1024

/-- The whole number that a binary number is. -/
def whole? (number : Binary) : Option Nat :=
  if 0 ≤ number.power then some (number.significand * Nat.pow 2 number.power.toNat)
  else
    let unit := Nat.pow 2 (-number.power).toNat
    if number.significand % unit = 0 then some (number.significand / unit) else none

end Binary

namespace Decimal

/-- The size of the binary number nearest to a decimal, unless it is too large.  A decimal far
outside the range is decided by its size alone. -/
def binary? (number : Decimal) : Option Binary :=
  let places : Int := decimalLength number.digits + number.exponent
  if number.digits = 0 || places < -400 then some .zero
  else if places > 400 then none
  else
    let nearest := Binary.nearest (number.digits * Nat.pow 10 number.exponent.toNat)
      (Nat.pow 10 (-number.exponent).toNat)
    if nearest.isTooLarge then none else some nearest

/-- What the binary number nearest to a decimal is. -/
def wholeness (number : Decimal) : Wholeness :=
  match number.binary? with
  | none => .tooLarge
  | some binary =>
      match binary.whole? with
      | some size => .whole (if number.negative then -(size : Int) else size)
      | none => .fractional

end Decimal

end CallGraph
