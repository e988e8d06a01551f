/-
Units of length.

A program is written in one unit, and its numbers go into the listing in millimetres or in inches: a metric
unit is multiplied up to millimetres, an inch stays as it is.  A unit is known by its text, because one that
is not recognised is kept and leaves numbers unscaled.  Where any value may stand for a unit it is looked up like
a key, and only a text can be found.
-/
import PartProgram.Value.Key
import PartProgram.Word.Code

namespace PartProgram

namespace LengthUnit

/-- The number a known unit multiplies by. -/
def factor? (unit : String) : Option Nat :=
  [("mm", 1), ("cm", 10), ("dm", 100), ("m", 1000), ("in", 1), ("inch", 1)].lookup unit

/-- Whether the unit is one of those known. -/
def isKnown (unit : String) : Bool := (factor? unit).isSome

/-- The number a unit multiplies by; one for a unit that is not known. -/
def factor (unit : String) : Nat := (factor? unit).getD 1

/-- The code that announces the unit: inches, or for every other unit millimetres. -/
def code (unit : String) : PreparatoryCode :=
  if unit = "in" ∨ unit = "inch" then .inch else .metric

/-- The text by which a value is looked up as a unit; nothing where it is none of the texts. -/
def lookup? (unit : Value) : Except UnfitKey (Option String) :=
  unit.checkKey.map fun _ => match unit with
    | .text s => some s
    | _ => none

/-- Whether a value is one of the units known. -/
def isKnownValue (unit : Value) : Except UnfitKey Bool := (lookup? unit).map (·.any isKnown)

/-- The number that a value multiplies by as a unit. -/
def factorOf (unit : Value) : Except UnfitKey Nat := (lookup? unit).map (·.elim 1 factor)

/-- The code that announces a value as the unit. -/
def codeOf (unit : Value) : Except UnfitKey PreparatoryCode := (lookup? unit).map (·.elim .metric code)

@[simp]
theorem factorOf_text (s : String) : factorOf (.text s) = .ok (factor s) := rfl

end LengthUnit

end PartProgram
