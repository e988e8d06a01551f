/-
Whole numbers in decimal digits.

The digits of a number are a list of characters; a column of fixed width fills up with zeros on the left,
and the sign of a negative number takes one place of the column.

There may be a limit to the number of digits.  It belongs to the language that a program runs in and not to
the program: it is set from outside for everything that runs there, it can be switched off, and there was a time
before it.  So the limit is a parameter, and what is proved holds under any limit and under none.

Under a limit an integer that has more digits cannot be written, and what needs its text fails; a numeral that
has more of them cannot be read.  The texts here are the texts in full: whether an integer has one is asked where
the text is needed.  Counters and the lengths of lists stay far below any limit, and there nobody asks.
-/

namespace PartProgram

/-- How many digits may be written, and read. -/
class DigitLimit where
  /-- The greatest number of digits; nothing where any number of them is written. -/
  most : Option Nat
  /-- A limit leaves room for the whole numbers among the floats. -/
  le_most : ∀ n ∈ most, 640 ≤ n

/-- The limit where nothing is said. -/
instance DigitLimit.standard : DigitLimit := ⟨some 4300, by rintro n ⟨⟩; decide⟩

namespace Decimal

/-- The decimal digits of `n`; zero has the one digit `0`. -/
def digitChars (n : Nat) : List Char := Nat.toDigits 10 n

/-- The decimal text of a natural number. -/
def natText (n : Nat) : String := String.ofList (digitChars n)

/-- The decimal text of an integer. -/
def intText (i : Int) : String :=
  if i < 0 then "-" ++ natText i.natAbs else natText i.natAbs

/-- Whether so many digits are within the limit. -/
def allows [DigitLimit] (count : Nat) : Bool := DigitLimit.most.all fun most => decide (count ≤ most)

/-- Whether an integer can be written. -/
def isWritten [DigitLimit] (i : Int) : Bool := allows (digitChars i.natAbs).length

/-- The digits of `n`, filled up with zeros on the left to at least `width` places. -/
def paddedDigits (width n : Nat) : List Char :=
  List.replicate (width - (digitChars n).length) '0' ++ digitChars n

/-- The decimal text of an integer in at least `width` places, its sign counted. -/
def paddedText (width : Nat) (i : Int) : String :=
  if i < 0 then String.ofList ('-' :: paddedDigits (width - 1) i.natAbs)
  else String.ofList (paddedDigits width i.natAbs)

/-- The text of a natural number in another base, in small letters. -/
def baseText (base n : Nat) : String := String.ofList (Nat.toDigits base n)

end Decimal

/-- An integer that has too many digits for a text. -/
structure TooLong where
deriving DecidableEq, Repr

/-- What went wrong, in words. -/
def TooLong.message [DigitLimit] (_ : TooLong) : String :=
  "Exceeds the limit (" ++ Decimal.natText (DigitLimit.most.getD 0) ++ " digits) for integer string conversion; "
    ++ "use sys.set_int_max_str_digits() to increase the limit"

end PartProgram
