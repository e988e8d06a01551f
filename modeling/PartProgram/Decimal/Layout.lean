/-
How a float is written.

Two layouts are in use and both take their digits from the shortest decimal.  The natural layout is for
showing a value: positional where the point falls near the digits, scientific elsewhere, and always with a
mark that tells it from an integer.  The plain layout is for words of a part program: positional at any
size and with nothing after the digits.
-/
import PartProgram.Decimal.Digits
import PartProgram.Decimal.Shortest

namespace PartProgram.Decimal

/-- The decisions of a layout that its numbers do not make. -/
structure Layout where
  /-- The least and the greatest place of the point that is written positionally. -/
  firstPlace : Int
  lastPlace : Int
  /-- What follows a whole number. -/
  wholeMark : String
  /-- The least number of digits of an exponent. -/
  exponentWidth : Nat

/-- Values are positional from `0.0001` up to sixteen digits before the point, whole ones end in `.0`, and an
exponent has two digits. -/
def Layout.natural : Layout := ⟨-3, 16, ".0", 2⟩

/-- A decimal with its point, `place` digits standing before it. -/
def positionalText (wholeMark : String) (digits : List Char) (place : Int) : String :=
  if place ≤ 0 then
    String.ofList ('0' :: '.' :: (List.replicate (-place).toNat '0' ++ digits))
  else if digits.length ≤ place.toNat then
    String.ofList (digits ++ List.replicate (place.toNat - digits.length) '0') ++ wholeMark
  else
    String.ofList (digits.take place.toNat ++ '.' :: digits.drop place.toNat)

/-- A decimal as a number from one to ten and a power of ten, the exponent always signed. -/
def scientificText (exponentWidth : Nat) (digits : List Char) (exponent : Int) : String :=
  let lead := digits.take 1
  let more := digits.drop 1
  let sign := if exponent < 0 then '-' else '+'
  String.ofList (lead ++ (if more.isEmpty then [] else '.' :: more) ++ 'e' :: sign ::
    paddedDigits exponentWidth exponent.natAbs)

/-- A decimal in the given layout. -/
def Scaled.text (layout : Layout) (s : Scaled) : String :=
  let digits := digitChars s.coefficient
  let place := digits.length + s.exponent
  if s.coefficient = 0 then "0" ++ layout.wholeMark
  else if layout.firstPlace ≤ place ∧ place ≤ layout.lastPlace then
    positionalText layout.wholeMark digits place
  else scientificText layout.exponentWidth digits (place - 1)

/-- A decimal written out in full, with neither an exponent nor a mark after a whole number. -/
def Scaled.plainText (s : Scaled) : String :=
  let digits := digitChars s.coefficient
  positionalText "" digits (digits.length + s.exponent)

/-- The minus sign of a negative number. -/
def signText (negative : Bool) : String := if negative then "-" else ""

/-- The text of a float that is not finite. -/
def nonFiniteText (x : Float) : String :=
  if x.isNaN then "nan" else if x < 0 then "-inf" else "inf"

/-- The natural text of a float. -/
def naturalText (x : Float) : String :=
  match Binary.ofFloat? x with
  | some b => signText b.negative ++ b.shortest.text Layout.natural
  | none => nonFiniteText x

/-- The plain text of a float: its exact value where that is whole, the shortest decimal otherwise. -/
def plainText (x : Float) : String :=
  match Binary.ofFloat? x with
  | some b =>
    match b.toInt? with
    | some i => intText i
    | none => signText b.negative ++ b.shortest.plainText
  | none => nonFiniteText x

end PartProgram.Decimal
