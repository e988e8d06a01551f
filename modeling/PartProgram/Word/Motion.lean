/-
The words of a motion.

Numbers are scaled to the unit of the listing and written out in full, an integral float without its fraction.
What is not a number is neither scaled nor touched otherwise: it goes into the listing as its plain text.  A unit
is looked up only where there is a number to scale, and what has been scaled must be something that can be written.
-/
import PartProgram.Word.LengthUnit
import PartProgram.Word.Position

namespace PartProgram

/-- Whether a value is a number, which the factor of a unit applies to. -/
def Value.isScalable : Value → Bool
  | .int _ | .float _ => true
  | _ => false

/-- A number multiplied by a factor, and any other value as it is. -/
def Value.scale (factor : Nat) : Value → Value
  | .int i => .int (i * factor)
  | .float x => .float (x * Float.ofNat factor)
  | v => v

/-- The factor that a unit has for a value.  For what is no number the unit is not even looked up. -/
def LengthUnit.factorFor (unit v : Value) : Except UnfitKey Nat := if v.isScalable then factorOf unit else .ok 1

/-- A value in the unit of the listing. -/
def Value.inUnit (v unit : Value) : Except UnfitKey Value := (LengthUnit.factorFor unit v).map v.scale

/-- A value as the number of a word. -/
def Value.numberText : Value → String
  | .bool b => if b then "1" else "0"
  | .float x => Decimal.plainText x
  | v => v.plain

/-- The word of a number under the factor of a unit. -/
def numberWord (letter : String) (factor : Nat) (v : Value) : String := letter ++ (v.scale factor).numberText

/-- The words of the axes that are present, in the order X, Y, Z. -/
def Position.axisWords (factor : Nat) (p : Position) : List String :=
  p.components.map fun (axis, v) => numberWord axis factor v

/-- The word of a feed rate. -/
def feedWord (factor : Nat) (feed : Value) : String := numberWord "F" factor feed

/-- The line of a motion: its code, the axes that are present, and the feed rate. -/
def motionLine (code : PreparatoryCode) (factor : Nat) (p : Position) (feed : Value) : String :=
  " ".intercalate (code.toWord :: p.axisWords factor ++ [feedWord factor feed])

/-! ### Words in a unit -/

/-- Why there is no word for a number. -/
inductive WordError where
  /-- The unit cannot be looked up. -/
  | unit (e : UnfitKey)
  /-- The number cannot be written. -/
  | number (e : TooLong)
deriving DecidableEq, Repr

variable [DigitLimit]

/-- What went wrong, in words. -/
def WordError.message : WordError → String
  | unit e => e.message
  | number e => e.message

/-- The word of a number in the given unit. -/
def numberWordIn (unit : Value) (letter : String) (v : Value) : Except WordError String := do
  let factor ← (LengthUnit.factorFor unit v).mapError .unit
  (v.scale factor).checkWritten.mapError .number
  return numberWord letter factor v

/-- The words of the axes that are present, in the given unit. -/
def Position.axisWordsIn (unit : Value) (p : Position) : Except WordError (List String) :=
  p.components.mapM fun (axis, v) => numberWordIn unit axis v

/-- The words of a position in the given unit, separated by spaces. -/
def Position.words (unit : Value) (p : Position) : Except WordError String :=
  (p.axisWordsIn unit).map " ".intercalate

/-- The word of a feed rate in the given unit. -/
def feedWordIn (unit feed : Value) : Except WordError String := numberWordIn unit "F" feed

/-- The line of a motion in the given unit. -/
def motionLineIn (code : PreparatoryCode) (unit : Value) (p : Position) (feed : Value) : Except WordError String := do
  let axes ← p.axisWordsIn unit
  let feed ← feedWordIn unit feed
  return " ".intercalate (code.toWord :: axes ++ [feed])

end PartProgram
