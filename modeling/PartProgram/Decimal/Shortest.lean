/-
The shortest decimal that reads back.

Every double owns an interval of real numbers that round to it: half a step to either side, the lower half
step being a quarter when the number is the first of its power of two, and the ends belonging to the interval
when the significand is even.  The shortest decimal of the double is the one with the fewest digits in that
interval and, of those, the nearest to the value.

For a given count of digits the candidates are the two neighbours of the value on the decimal grid with that
many places, so it is enough to try the two for one digit, for two digits, and so on; seventeen always do.
All comparisons are made between natural numbers.
-/
import PartProgram.Decimal.Binary

namespace PartProgram.Decimal

/-- The number `coefficient · 10 ^ exponent`. -/
structure Scaled where
  coefficient : Nat
  exponent : Int
deriving DecidableEq, Repr

/-- The same number, zeros at the end of the coefficient moved into the exponent.  `fuel` is the greatest
number of zeros that are moved. -/
def Scaled.trim : Nat → Scaled → Scaled
  | 0, s => s
  | fuel + 1, s =>
    if s.coefficient ≠ 0 ∧ s.coefficient % 10 = 0 then trim fuel ⟨s.coefficient / 10, s.exponent + 1⟩
    else s

namespace Binary

/-- Whether the step below the value is half the step above it. -/
def isFirstOfPower (b : Binary) : Bool :=
  decide (b.significand = 2 ^ 52) && decide (-1074 < b.exponent)

/-- Whether `s` lies in the interval of the numbers that round to the value. -/
def owns (b : Binary) (s : Scaled) : Bool :=
  let unit := 2 ^ b.exponent.toNat * 10 ^ (-s.exponent).toNat
  let low := (4 * b.significand - (if b.isFirstOfPower then 1 else 2)) * unit
  let high := (4 * b.significand + 2) * unit
  let mid := 4 * s.coefficient * 10 ^ s.exponent.toNat * 2 ^ (-b.exponent).toNat
  if b.significand % 2 = 0 then decide (low ≤ mid) && decide (mid ≤ high)
  else decide (low < mid) && decide (mid < high)

/-- How many factors of ten lift `n / d` to at least one.  `fuel` is the greatest number that is tried. -/
def liftCount (d : Nat) : Nat → Nat → Nat
  | 0, _ => 0
  | fuel + 1, n => if d ≤ n then 0 else liftCount d fuel (n * 10) + 1

/-- The place of the decimal point: the value is at least `10 ^ (k - 1)` and less than `10 ^ k`. -/
def pointPlace (b : Binary) : Int :=
  let (n, d) := b.ratio
  if d ≤ n then ((Nat.toDigits 10 (n / d)).length : Int)
  else 1 - (liftCount d 400 n : Int)

/-- The neighbour of the value from below on the grid of the multiples of `10 ^ p`. -/
def floorAt (b : Binary) (p : Int) : Nat :=
  b.ratio.1 * 10 ^ (-p).toNat / (b.ratio.2 * 10 ^ p.toNat)

/-- Whether the neighbour from above on that grid is the nearer one; half way, the even one is. -/
def prefersAbove (b : Binary) (p : Int) : Bool :=
  let n := b.ratio.1 * 10 ^ (-p).toNat
  let d := b.ratio.2 * 10 ^ p.toNat
  let twice := 2 * (n % d)
  decide (d < twice) || (decide (twice = d) && decide (n / d % 2 = 1))

/-- The decimal with at most the given number of digits that the value owns and is nearest to. -/
def withDigits? (b : Binary) (digits : Nat) : Option Scaled :=
  let p := b.pointPlace - digits
  let below : Scaled := ⟨b.floorAt p, p⟩
  let above : Scaled := ⟨b.floorAt p + 1, p⟩
  match b.owns below, b.owns above with
  | true, true => some (if b.prefersAbove p then above else below)
  | true, false => some below
  | false, true => some above
  | false, false => none

/-- The shortest decimal that reads back as the value; zero for zero. -/
def shortest (b : Binary) : Scaled :=
  if b.significand = 0 then ⟨0, 0⟩
  else
    let found := ((List.range 17).findSome? fun i => b.withDigits? (i + 1)).getD
      ⟨b.floorAt (b.pointPlace - 17), b.pointPlace - 17⟩
    found.trim 17

end Binary

end PartProgram.Decimal
