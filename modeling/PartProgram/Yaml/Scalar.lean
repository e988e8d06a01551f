/-
What a plain scalar stands for.

A scalar without quotes is a text unless its spelling is that of nothing, of a truth value, of an integer or of
a float.  Underscores may stand among the digits.  Integers come in base two, eight, ten and sixteen and in
base sixty with colons; a float has a point, and a sign in its exponent.  Some spellings are those of a value that
does not exist, such as a number of underscores alone or a day that is not in the calendar.

There are no days and no moments among the values.  A day that is in the calendar stands for its text here, which
is what settings make of one; as a key, and as a moment with its time, it is beyond this reading.
-/
import PartProgram.Decimal.Numeral
import PartProgram.Value.Basic

namespace PartProgram.Yaml

/-- A value that is spelled well and does not exist. -/
inductive NoSuchValue where
  /-- A number without digits in a base. -/
  | noDigits (base : Nat)
  /-- A decimal number with more digits than the limit allows. -/
  | tooManyDigits (count : Nat)
  /-- A number in base sixty with a place beyond the range of floats. -/
  | tooManySixties
  | noYear
  | noMonth
  | noDay
  /-- The code of a character beyond the last one. -/
  | noCharacter
  /-- The code of a character beyond 31 bits. -/
  | codeTooLarge
deriving DecidableEq, Repr

/-- What went wrong, in words. -/
def NoSuchValue.message [DigitLimit] : NoSuchValue → String
  | noDigits base => "invalid literal for int() with base " ++ Decimal.natText base ++ ": ''"
  | tooManyDigits count =>
    "Exceeds the limit (" ++ Decimal.natText (DigitLimit.most.getD 0) ++ " digits) for integer string conversion: value has "
      ++ Decimal.natText count ++ " digits; use sys.set_int_max_str_digits() to increase the limit"
  | tooManySixties => "int too large to convert to float"
  | noYear => "year 0 is out of range"
  | noMonth => "month must be in 1..12"
  | noDay => "day is out of range for month"
  | noCharacter => "chr() arg not in range(0x110000)"
  | codeTooLarge => "Python int too large to convert to C int"

/-- The spellings of nothing. -/
def nullWords : List String := ["", "~", "null", "Null", "NULL"]

/-- The spellings of true. -/
def trueWords : List String := ["yes", "Yes", "YES", "true", "True", "TRUE", "on", "On", "ON"]

/-- The spellings of false. -/
def falseWords : List String := ["no", "No", "NO", "false", "False", "FALSE", "off", "Off", "OFF"]

/-- Whether `c` may stand among decimal digits. -/
def isDigitOrGroup (c : Char) : Bool := Decimal.isDigit c || c == '_'

/-- Whether `c` is a hexadecimal digit. -/
def isHexDigit (c : Char) : Bool :=
  Decimal.isDigit c || (decide ('a' ≤ c) && decide (c ≤ 'f')) || (decide ('A' ≤ c) && decide (c ≤ 'F'))

/-- The characters split at every colon. -/
def splitColons : List Char → List (List Char)
  | [] => [[]]
  | c :: rest =>
    match splitColons rest with
    | [] => []
    | part :: parts => if c == ':' then [] :: part :: parts else (c :: part) :: parts

/-- Whether the characters are a number below sixty in one or two digits. -/
def isSixtieth : List Char → Bool
  | [d] => Decimal.isDigit d
  | [t, d] => decide ('0' ≤ t) && decide (t ≤ '5') && Decimal.isDigit d
  | _ => false

/-- The characters without underscores. -/
def plainDigits (cs : List Char) : List Char := cs.filter (· != '_')

/-- The number that digits among underscores spell in a base. -/
def inBase (base : Nat) (ds : List Char) : Except NoSuchValue Nat :=
  if (plainDigits ds).isEmpty then .error (.noDigits base) else .ok (Decimal.digitsValue base (plainDigits ds))

/-- The integer that decimal digits among underscores spell, with the parts of a number in base sixty. -/
def inSixties [DigitLimit] (first : List Char) (parts : List (List Char)) : Except NoSuchValue Nat :=
  if Decimal.allows (plainDigits first).length then
    .ok (parts.foldl (fun n p => n * 60 + Decimal.digitsValue 10 p) (Decimal.digitsValue 10 (plainDigits first)))
  else .error (.tooManyDigits (plainDigits first).length)

/-- The integer that characters spell after the sign. -/
def magnitude? [DigitLimit] (cs : List Char) : Option (Except NoSuchValue Nat) :=
  match cs with
  | '0' :: 'b' :: ds =>
    if !ds.isEmpty && ds.all (fun c => c == '0' || c == '1' || c == '_') then some (inBase 2 ds) else none
  | '0' :: 'x' :: ds =>
    if !ds.isEmpty && ds.all (fun c => isHexDigit c || c == '_') then some (inBase 16 ds) else none
  | '0' :: ds =>
    if ds.all fun c => (decide ('0' ≤ c) && decide (c ≤ '7')) || c == '_' then some (inBase 8 ('0' :: ds)) else none
  | d :: _ =>
    if !Decimal.isDigit d then none
    else match splitColons cs with
      | [] => none
      | first :: parts =>
        if first.all isDigitOrGroup && parts.all isSixtieth then some (inSixties first parts) else none
  | [] => none

/-- Whether the characters are the exponent of a float, or nothing. -/
def isExponent : List Char → Bool
  | [] => true
  | e :: sign :: ds =>
    (e == 'e' || e == 'E') && (sign == '-' || sign == '+') && !ds.isEmpty && ds.all Decimal.isDigit
  | _ => false

/-- The float that digits around a point spell. -/
def pointFloat? (cs : List Char) : Option Float :=
  (Decimal.Numeral.read? (plainDigits cs)).map (·.toFloat)

/-- The float of a number in base sixty, given from its last part on: the parts are added to `sum` in turn, the
next of them being worth `base`, which has to be in the range of floats. -/
def sixtiesFloat (sum : Float) (base : Nat) : List (List Char) → Except NoSuchValue Float
  | [] => .ok sum
  | p :: rest =>
    if Decimal.fitsFloat base then
      sixtiesFloat (sum + (pointFloat? p).getD 0.0 * Decimal.intToFloat base) (base * 60) rest
    else .error .tooManySixties

/-- Whether the characters are digits, a point, and possibly digits. -/
def isPointed (cs : List Char) : Bool :=
  match cs.dropWhile isDigitOrGroup with
  | '.' :: fraction => fraction.all isDigitOrGroup
  | _ => false

/-- The float that characters spell after the sign; `signed` says whether there is one. -/
def floatMagnitude? (signed : Bool) (cs : List Char) : Option (Except NoSuchValue Float) :=
  if ["inf", "Inf", "INF"].any fun w => cs == '.' :: w.toList then some (.ok (1.0 / 0.0))
  else match cs with
    | '.' :: d :: ds =>
      if signed || !Decimal.isDigit d then none
      else if isExponent (ds.dropWhile isDigitOrGroup) then (pointFloat? cs).map .ok
      else none
    | d :: _ =>
      if !Decimal.isDigit d then none
      else match splitColons cs with
        | [_] =>
          match cs.dropWhile isDigitOrGroup with
          | '.' :: tail => if isExponent (tail.dropWhile isDigitOrGroup) then (pointFloat? cs).map .ok else none
          | _ => none
        | first :: parts =>
          match parts.reverse with
          | last :: middle =>
            if first.all isDigitOrGroup && middle.all isSixtieth && isPointed last &&
                isSixtieth (last.takeWhile (· != '.')) then
              some (sixtiesFloat 0.0 1 (last :: middle ++ [first]))
            else none
          | [] => none
        | [] => none
    | [] => none

/-- The number of days in a month of the Gregorian calendar. -/
def daysIn (year month : Nat) : Nat :=
  if month = 2 then if year % 4 = 0 ∧ (year % 100 ≠ 0 ∨ year % 400 = 0) then 29 else 28
  else if month = 4 ∨ month = 6 ∨ month = 9 ∨ month = 11 then 30
  else 31

/-- Whether a text has the form of a day: year, month and day in digits. -/
def isDay : List Char → Bool
  | [y1, y2, y3, y4, '-', m1, m2, '-', d1, d2] => [y1, y2, y3, y4, m1, m2, d1, d2].all Decimal.isDigit
  | _ => false

/-- What is left of a text behind one or two digits. -/
def skipDigits : List Char → Option (List Char)
  | c :: c' :: rest => if Decimal.isDigit c then some (if Decimal.isDigit c' then rest else c' :: rest) else none
  | [c] => if Decimal.isDigit c then some [] else none
  | [] => none

/-- Whether a text is that of a time zone, or nothing. -/
def isZone (cs : List Char) : Bool :=
  match cs.dropWhile fun c => c == ' ' || c == '\t' with
  | [] => cs.isEmpty
  | ['Z'] => true
  | sign :: rest => (sign == '+' || sign == '-') && match skipDigits rest with
    | some [] => true
    | some [':', m1, m2] => [m1, m2].all Decimal.isDigit
    | _ => false

/-- Whether a text is that of a time: hour, minute and second, and whatever a zone adds to them. -/
def isTime (cs : List Char) : Bool :=
  match skipDigits cs with
  | some (':' :: m1 :: m2 :: ':' :: s1 :: s2 :: rest) => [m1, m2, s1, s2].all Decimal.isDigit && match rest with
    | '.' :: fraction => isZone (fraction.dropWhile Decimal.isDigit)
    | _ => isZone rest
  | _ => false

/-- Whether a text has the form of a moment: a day, whose month and day may be single digits, and a time. -/
def isMoment : List Char → Bool
  | y1 :: y2 :: y3 :: y4 :: '-' :: rest => [y1, y2, y3, y4].all Decimal.isDigit && match skipDigits rest with
    | some ('-' :: rest) => match skipDigits rest with
      | some (c :: rest) =>
        if c == 't' || c == 'T' then isTime rest
        else (c == ' ' || c == '\t') && isTime (rest.dropWhile fun c => c == ' ' || c == '\t')
      | _ => false
    | _ => false
  | _ => false

/-- Looks at a text that has the form of a day. -/
def checkDay : List Char → Except NoSuchValue Unit
  | [y1, y2, y3, y4, '-', m1, m2, '-', d1, d2] =>
    if [y1, y2, y3, y4, m1, m2, d1, d2].all Decimal.isDigit then
      let year := Decimal.digitsValue 10 [y1, y2, y3, y4]
      let month := Decimal.digitsValue 10 [m1, m2]
      let day := Decimal.digitsValue 10 [d1, d2]
      if year = 0 then .error .noYear
      else if month = 0 ∨ 12 < month then .error .noMonth
      else if day = 0 ∨ daysIn year month < day then .error .noDay
      else .ok ()
    else .ok ()
  | _ => .ok ()

/-- What the text of a plain scalar stands for. -/
def resolve [DigitLimit] (s : String) : Except NoSuchValue Value :=
  let cs := s.toList
  let (negative, rest) := Decimal.splitSign cs
  let signed := decide (rest.length < cs.length)
  if nullWords.contains s then .ok .null
  else if trueWords.contains s then .ok (.bool true)
  else if falseWords.contains s then .ok (.bool false)
  else if [".nan", ".NaN", ".NAN"].contains s then .ok (.float (0.0 / 0.0))
  else match magnitude? rest with
    | some n => n.map fun n => .int (if negative then -(n : Int) else n)
    | none => match floatMagnitude? signed rest with
      | some x => x.map fun x => .float (if negative then -x else x)
      | none => (checkDay cs).map fun _ => .text s

end PartProgram.Yaml
