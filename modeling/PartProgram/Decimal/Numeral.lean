/-
Reading numerals.

A numeral is an optional sign followed by digits with an optional point and an optional power of ten, or by
one of the words for infinity and for what is no number.  What is read is the exact decimal; turning it into
a float, which rounds, is a step of its own.

Numerals arrive in two spellings.  A loose one may stand between white space, use the digits of any script and
group its digits with single underscores.  A narrow one is ASCII throughout.
-/
import PartProgram.Decimal.Digits
import PartProgram.Decimal.Shortest
import PartProgram.Text.Blank
import PartProgram.Text.DecimalDigit

namespace PartProgram.Decimal

/-- A number as it was spelled. -/
inductive Numeral where
  | finite (negative : Bool) (magnitude : Scaled)
  | infinite (negative : Bool)
  | notANumber
deriving DecidableEq, Repr

/-- Whether `c` is an ASCII digit. -/
def isDigit (c : Char) : Bool := decide ('0' ≤ c) && decide (c ≤ '9')

/-- The number a run of ASCII digits spells in the given base. -/
def digitsValue (base : Nat) (cs : List Char) : Nat :=
  cs.foldl (fun n c => n * base +
    (if isDigit c then c.toNat - '0'.toNat else c.toLower.toNat - 'a'.toNat + 10)) 0

/-- The sign at the front of the characters, and what follows it. -/
def splitSign : List Char → Bool × List Char
  | '-' :: rest => (true, rest)
  | '+' :: rest => (false, rest)
  | cs => (false, cs)

/-- The power of ten that closes a numeral; zero where there is none. -/
def readExponent? : List Char → Option Int
  | [] => some 0
  | c :: rest =>
    if c = 'e' ∨ c = 'E' then
      let (negative, ds) := splitSign rest
      if ds.isEmpty || !ds.all isDigit then none
      else
        let n : Int := (digitsValue 10 ds : Nat)
        some (if negative then -n else n)
    else none

/-- The digits of a numeral around its point. -/
def readMagnitude? (cs : List Char) : Option Scaled :=
  let whole := cs.takeWhile isDigit
  let tail := cs.dropWhile isDigit
  let (fraction, tail) := match tail with
    | '.' :: rest => (rest.takeWhile isDigit, rest.dropWhile isDigit)
    | _ => ([], tail)
  if whole.isEmpty && fraction.isEmpty then none
  else (readExponent? tail).map fun e => ⟨digitsValue 10 (whole ++ fraction), e - fraction.length⟩

namespace Numeral

/-- A narrow numeral. -/
def read? (cs : List Char) : Option Numeral :=
  let (negative, rest) := splitSign cs
  let word := rest.map Char.toLower
  if word = "inf".toList ∨ word = "infinity".toList then some (.infinite negative)
  else if word = "nan".toList then some .notANumber
  else (readMagnitude? rest).map (.finite negative)

end Numeral

/-- The characters without the underscores that group digits; nothing where an underscore stands anywhere
but between two digits.  `last` is the character before. -/
def ungroup? (last : Char) : List Char → Option (List Char)
  | [] => if last = '_' then none else some []
  | c :: rest =>
    if c = '_' then if isDigit last then ungroup? c rest else none
    else if last = '_' ∧ ¬ isDigit c then none
    else (ungroup? c rest).map (c :: ·)

/-- The characters with the white space around them left out and every decimal digit in ASCII. -/
def narrow (cs : List Char) : List Char :=
  (Text.trimWhiteSpace cs).map fun c =>
    match Text.digitValue? c with
    | some d => Char.ofNat ('0'.toNat + d)
    | none => c

/-- A loose numeral. -/
def Numeral.readLoose? (s : String) : Option Numeral :=
  (ungroup? ' ' (narrow s.toList)).bind Numeral.read?

/-- A loose integer: digits after an optional sign, as many as the limit allows. -/
def readLooseInt? [DigitLimit] (s : String) : Option Int :=
  (ungroup? ' ' (narrow s.toList)).bind fun cs =>
    let (negative, ds) := splitSign cs
    if ds.isEmpty || !ds.all isDigit || !allows ds.length then none
    else
      let n : Int := (digitsValue 10 ds : Nat)
      some (if negative then -n else n)

/-- The float nearest to a decimal: infinity above the greatest float, zero far below the least. -/
def Scaled.toFloat (s : Scaled) : Float :=
  let place := (digitChars s.coefficient).length + s.exponent
  if s.coefficient = 0 ∨ place < -400 then 0.0
  else if 400 < place then 1.0 / 0.0
  else Float.ofScientific s.coefficient (decide (s.exponent < 0)) s.exponent.natAbs

/-- The float nearest to a numeral. -/
def Numeral.toFloat : Numeral → Float
  | .finite negative s => if negative then -s.toFloat else s.toFloat
  | .infinite negative => if negative then -1.0 / 0.0 else 1.0 / 0.0
  | .notANumber => 0.0 / 0.0

/-- The float nearest to an integer. -/
def intToFloat (i : Int) : Float :=
  if i < 0 then -(Scaled.toFloat ⟨i.natAbs, 0⟩) else Scaled.toFloat ⟨i.natAbs, 0⟩

/-- Whether an integer has a nearest float that is finite: those from half a step above the greatest float
on do not. -/
def fitsFloat (i : Int) : Bool := decide (i.natAbs < 2 ^ 1024 - 2 ^ 970)

end PartProgram.Decimal
