/-
A finite double as an exact number.

The bits of a double hold a sign, eleven bits of exponent and fifty-two of fraction.  `Binary` is what they
mean: a sign, a natural number and a power of two, with no rounding left in it.  Everything the library says
about the value of a float is said about this form.
-/

-- A power of a whole number is the one of the core library, whatever else is imported beside it.
attribute [instance (high), default_instance (high + 1)] instPowNat

namespace PartProgram.Decimal

/-- The number `±significand · 2 ^ exponent`. -/
structure Binary where
  negative : Bool
  significand : Nat
  exponent : Int
deriving DecidableEq, Repr

namespace Binary

/-- The number a pattern of 64 bits stands for; nothing for the infinities and for what is no number. -/
def ofBits? (bits : Nat) : Option Binary :=
  let negative := decide (bits / 2 ^ 63 % 2 = 1)
  let exponent : Nat := bits / 2 ^ 52 % 2048
  let fraction : Nat := bits % 2 ^ 52
  if exponent = 2047 then none
  else if exponent = 0 then some ⟨negative, fraction, -1074⟩
  else some ⟨negative, fraction + 2 ^ 52, (exponent : Int) - 1075⟩

/-- The exact value of a float; nothing for the infinities and for what is no number. -/
def ofFloat? (x : Float) : Option Binary := ofBits? x.toBits.toNat

/-- The magnitude as a numerator over a denominator, both whole. -/
def ratio (b : Binary) : Nat × Nat :=
  (b.significand * 2 ^ b.exponent.toNat, 2 ^ (-b.exponent).toNat)

/-- The numerator with the sign of the value. -/
def numerator (b : Binary) : Int :=
  let n : Int := (b.ratio.1 : Nat)
  if b.negative then -n else n

/-- The whole number next to the value on the side of zero. -/
def truncate (b : Binary) : Int :=
  let n : Int := ((b.ratio.1 / b.ratio.2 : Nat) : Int)
  if b.negative then -n else n

/-- Whether the value is a whole number. -/
def isWhole (b : Binary) : Bool := decide (b.ratio.1 % b.ratio.2 = 0)

/-- The value, where it is a whole number. -/
def toInt? (b : Binary) : Option Int := if b.isWhole then some b.truncate else none

/-- The whole number nearest to the value; half way between two, the even one. -/
def roundToEven (b : Binary) : Int :=
  let (n, d) := b.ratio
  let q := n / d
  let r := n % d
  let m := if 2 * r > d ∨ (2 * r = d ∧ q % 2 = 1) then q + 1 else q
  if b.negative then -(m : Int) else (m : Int)

end Binary

end PartProgram.Decimal
