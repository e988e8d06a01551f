/-
The codes of a listing.

A word is a letter and what follows it.  The preparatory codes say how the words of a line are meant, the
miscellaneous codes switch parts of the machine; both are written with two digits.
-/
import PartProgram.Value.Printer

namespace PartProgram

/-- A word: its letter and the plain text of its value. -/
def word [DigitLimit] (letter : String) (v : Value) : Except TooLong String :=
  v.checkWritten.map fun _ => letter ++ v.plain

/-- The codes written after the letter G. -/
inductive PreparatoryCode where
  | rapid
  | linear
  | inch
  | metric
  | absolute
  | relative
deriving DecidableEq, Repr

namespace PreparatoryCode

/-- Every preparatory code, in the order of the catalogue. -/
def all : List PreparatoryCode := [rapid, linear, inch, metric, absolute, relative]

/-- The name of the code in the catalogue. -/
def memberName : PreparatoryCode → String
  | rapid => "RAPID"
  | linear => "LINEAR"
  | inch => "INCH"
  | metric => "METRIC"
  | absolute => "ABSOLUTE"
  | relative => "RELATIVE"

/-- The two digits of the code. -/
def digits : PreparatoryCode → String
  | rapid => "00"
  | linear => "01"
  | inch => "20"
  | metric => "21"
  | absolute => "90"
  | relative => "91"

/-- The word of the code. -/
def toWord (c : PreparatoryCode) : String := "G" ++ c.digits

end PreparatoryCode

/-- The codes written after the letter M. -/
inductive MiscellaneousCode where
  | forcedStop
  | spindleClockwise
  | spindleCounterclockwise
  | spindleStop
  | coolantMist
  | coolantFlood
  | coolantStop
  | programEnd
deriving DecidableEq, Repr

namespace MiscellaneousCode

/-- Every miscellaneous code, in the order of the catalogue. -/
def all : List MiscellaneousCode :=
  [forcedStop, spindleClockwise, spindleCounterclockwise, spindleStop, coolantMist, coolantFlood,
    coolantStop, programEnd]

/-- The name of the code in the catalogue. -/
def memberName : MiscellaneousCode → String
  | forcedStop => "FORCED_STOP"
  | spindleClockwise => "SPINDLE_CW"
  | spindleCounterclockwise => "SPINDLE_CCW"
  | spindleStop => "SPINDLE_STOP"
  | coolantMist => "COOLANT_MIST"
  | coolantFlood => "COOLANT_FLOOD"
  | coolantStop => "COOLANT_STOP"
  | programEnd => "PROGRAM_END"

/-- The two digits of the code. -/
def digits : MiscellaneousCode → String
  | forcedStop => "00"
  | spindleClockwise => "03"
  | spindleCounterclockwise => "04"
  | spindleStop => "05"
  | coolantMist => "07"
  | coolantFlood => "08"
  | coolantStop => "09"
  | programEnd => "30"

/-- The word of the code. -/
def toWord (c : MiscellaneousCode) : String := "M" ++ c.digits

end MiscellaneousCode

/-- The code that sets a distance mode. -/
def DistanceMode.code : DistanceMode → PreparatoryCode
  | absolute => .absolute
  | relative => .relative

end PartProgram
