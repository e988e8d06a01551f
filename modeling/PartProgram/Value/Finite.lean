/-
Values that count as finite numbers.

Strict programs write nothing into a listing but finite numbers.  Integers and floats are numbers, truth
values are not; an integer is judged by the float nearest to it, so one beyond the range of floats cannot be
judged at all.
-/
import PartProgram.Decimal.Numeral
import PartProgram.Value.Printer

namespace PartProgram

/-- What keeps a value from being a finite number. -/
inductive NumberFault where
  | notNumber
  | notFinite
  | tooLarge
deriving DecidableEq, Repr

/-- A value refused as a number, with the label of the place it was given for. -/
structure NumberError where
  label : String
  given : Value
  fault : NumberFault

/-- What went wrong, in words.  There are no words of its own for a value that cannot be written. -/
def NumberError.message [DigitLimit] (e : NumberError) : String :=
  match e.fault with
  | .notNumber =>
    if e.given.isWritten then e.label ++ " must be a number, got " ++ e.given.literal else TooLong.message ⟨⟩
  | .notFinite => e.label ++ " must be finite, got " ++ e.given.literal
  | .tooLarge => "int too large to convert to float"

namespace Value

/-- What keeps the value from being a finite number; nothing where it is one. -/
def numberFault? : Value → Option NumberFault
  | int i => if Decimal.fitsFloat i then none else some .tooLarge
  | float x => if x.isFinite then none else some .notFinite
  | _ => some .notNumber

/-- Refuses a value that is no finite number. -/
def checkFinite (label : String) (v : Value) : Except NumberError Unit :=
  match v.numberFault? with
  | none => .ok ()
  | some fault => .error ⟨label, v, fault⟩

end Value

end PartProgram
