/-
Decimals with a given number of digits.

A message may ask for a number with so many places after the point, with so many digits in all, or with
whichever of the two layouts is the shorter.  All three round the exact value to the nearest decimal of that
many digits and, half way between two, to the even one.
-/
import PartProgram.Decimal.Digits
import PartProgram.Decimal.Shortest

namespace PartProgram.Decimal

/-- Digits with a point before the last `places` of them.  A point with nothing after it is left out, unless
it is wanted. -/
def pointed (wantPoint : Bool) (places : Nat) (digits : List Char) : List Char :=
  let after := digits.drop (digits.length - places)
  digits.take (digits.length - places) ++ (if after.isEmpty && !wantPoint then [] else '.' :: after)

/-- Digits with a point behind the first, and the power of ten they are multiplied with. -/
def withExponent (wantPoint : Bool) (digits : List Char) (exponent : Int) : List Char :=
  pointed wantPoint (digits.length - 1) digits ++
    'e' :: (if exponent < 0 then '-' else '+') :: paddedDigits 2 exponent.natAbs

namespace Binary

/-- The multiple of `10 ^ p` that is nearest to the magnitude, by its coefficient. -/
def roundedAt (b : Binary) (p : Int) : Nat := b.floorAt p + if b.prefersAbove p then 1 else 0

/-- The magnitude with the given number of places after the point. -/
def fixed (b : Binary) (wantPoint : Bool) (places : Nat) : List Char :=
  pointed wantPoint places (paddedDigits (places + 1) (b.roundedAt (-places)))

/-- The first `count` digits of the magnitude, and the exponent of the first of them. -/
def leading (b : Binary) (count : Nat) : List Char × Int :=
  if b.significand = 0 then (List.replicate count '0', 0)
  else
    let p := b.pointPlace - count
    let digits := digitChars (b.roundedAt p)
    (digits.take count, p + digits.length - 1)

/-- The magnitude as a number from one to ten with the given number of places, and a power of ten. -/
def scientific (b : Binary) (wantPoint : Bool) (places : Nat) : List Char :=
  let (digits, exponent) := b.leading (places + 1)
  withExponent wantPoint digits exponent

/-- The digits without the zeros at their end, the first digit always kept. -/
def withoutEndZeros : List Char → List Char
  | [] => []
  | c :: rest => c :: (rest.reverse.dropWhile (· = '0')).reverse

/-- The magnitude with the given number of digits in all: positional unless its exponent is below `-4` or as
great as that number.  Zeros at the end go, unless the point is wanted. -/
def general (b : Binary) (wantPoint : Bool) (count : Nat) : List Char :=
  let count := max 1 count
  let (digits, exponent) := b.leading count
  let digits := if wantPoint then digits else withoutEndZeros digits
  if exponent < -4 ∨ (count : Int) ≤ exponent then withExponent wantPoint digits exponent
  else if exponent < 0 then
    pointed wantPoint (digits.length - 1 + exponent.natAbs) (List.replicate exponent.natAbs '0' ++ digits)
  else
    let whole := exponent.toNat + 1
    pointed wantPoint (digits.length - whole) (digits ++ List.replicate (whole - digits.length) '0')

end Binary

end PartProgram.Decimal
