/-
Line numbers.

A numbered line begins with the letter N and a counter of at least three digits.  The lines that open and close
a listing and the line with the name of the program carry no number; they are known by their first character.
-/
import PartProgram.Value.Printer

namespace PartProgram

/-- The line that opens and closes a listing. -/
def openMarker : String := "%"

/-- The letter in front of the name of a program. -/
def nameLetter : String := "O"

/-- The word of a line number. -/
def lineNumberWord (n : Int) : String := "N" ++ Decimal.paddedText 3 n

/-- Why a value has no line number word. -/
inductive LineNumberError where
  /-- A number or a text that is no integer. -/
  | notInteger (kind : String)
  /-- A value that cannot be written in a column at all. -/
  | noColumn (kind : String)
  /-- An integer that cannot be written. -/
  | tooLong (e : TooLong)
deriving DecidableEq, Repr

/-- What went wrong, in words. -/
def LineNumberError.message [DigitLimit] : LineNumberError → String
  | notInteger kind => "Unknown format code 'd' for object of type '" ++ kind ++ "'"
  | noColumn kind => "unsupported format string passed to " ++ kind ++ ".__format__"
  | tooLong e => e.message

/-- The line number word of a value: integers have one, and truth values as zero or one. -/
def Value.lineNumberWord? [DigitLimit] : Value → Except LineNumberError String
  | .int i => if Decimal.isWritten i then .ok (lineNumberWord i) else .error (.tooLong ⟨⟩)
  | .bool b => .ok (lineNumberWord (if b then 1 else 0))
  | .float _ => .error (.notInteger "float")
  | .text _ => .error (.notInteger "str")
  | .mode _ => .error (.notInteger "str")
  | v => .error (.noColumn v.kindName)

/-- Whether a line goes without a number. -/
def isUnnumbered (line : String) : Bool :=
  match line.toList with
  | c :: _ => c == '%' || c == 'O'
  | [] => false

/-- A value that is no text, known by its kind, where only the first character of a text could tell something. -/
structure NotLine where
  kind : String
deriving DecidableEq, Repr

/-- What went wrong, in words. -/
def NotLine.message (e : NotLine) : String := "'" ++ e.kind ++ "' object has no attribute 'startswith'"

/-- Whether a value goes without a number as a line. -/
def Value.isUnnumberedLine? : Value → Except NotLine Bool
  | .text s => .ok (isUnnumbered s)
  | v => .error ⟨v.kindName⟩

end PartProgram
