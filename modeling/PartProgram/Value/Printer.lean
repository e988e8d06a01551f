/-
Values written out.

A value has two texts.  Its literal tells it from every value of another kind, so a text is in quotes; its
plain text is what a reader of a listing or a message wants to see, and differs from the literal for texts
and distance modes alone.  Inside a list, a map or a position every value is written as a literal.  Both texts
are there in full whatever the limit of digits is; a value that holds an integer beyond the limit is not written.
-/
import PartProgram.Decimal.Layout
import PartProgram.Text.Quoted
import PartProgram.Value.Basic

namespace PartProgram

/-- The member name of a distance mode. -/
def DistanceMode.memberName : DistanceMode → String
  | absolute => "ABSOLUTE"
  | relative => "RELATIVE"

/-- The number of a distance mode. -/
def DistanceMode.number : DistanceMode → Nat
  | absolute => 0
  | relative => 1

namespace Value

mutual

/-- The literal of a value. -/
def literal : Value → String
  | null => "None"
  | bool b => if b then "True" else "False"
  | int i => Decimal.intText i
  | float x => Decimal.naturalText x
  | text s => Text.quoted s
  | list items => "[" ++ ", ".intercalate (literals items) ++ "]"
  | tuple [item] => "(" ++ literal item ++ ",)"
  | tuple items => "(" ++ ", ".intercalate (literals items) ++ ")"
  | map entries => "\x7b" ++ ", ".intercalate (entryLiterals entries) ++ "\x7d"
  | position x y z => "Position(x=" ++ literal x ++ ", y=" ++ literal y ++ ", z=" ++ literal z ++ ")"
  | mode m => "<Positioning." ++ m.memberName ++ ": " ++ Decimal.natText m.number ++ ">"

/-- The literals of a list of values. -/
def literals : List Value → List String
  | [] => []
  | v :: rest => literal v :: literals rest

/-- The literals of the entries of a map. -/
def entryLiterals : List (Value × Value) → List String
  | [] => []
  | (k, v) :: rest => (literal k ++ ": " ++ literal v) :: entryLiterals rest

end

/-- The plain text of a value. -/
def plain : Value → String
  | text s => s
  | mode m => "Positioning." ++ m.memberName
  | v => literal v

section Written

variable [DigitLimit]

mutual

/-- Whether a value can be written, which is up to the integers in it. -/
def isWritten : Value → Bool
  | int i => Decimal.isWritten i
  | list items => areWritten items
  | tuple items => areWritten items
  | map entries => entriesAreWritten entries
  | position x y z => isWritten x && isWritten y && isWritten z
  | _ => true

/-- Whether all values of a list can be written. -/
def areWritten : List Value → Bool
  | [] => true
  | v :: rest => isWritten v && areWritten rest

/-- Whether all keys and values of a map can be written. -/
def entriesAreWritten : List (Value × Value) → Bool
  | [] => true
  | (k, v) :: rest => isWritten k && isWritten v && entriesAreWritten rest

end

/-- Refuses a value that cannot be written. -/
def checkWritten (v : Value) : Except TooLong Unit := if v.isWritten then .ok () else .error ⟨⟩

@[simp]
theorem isWritten_text (s : String) : (text s).isWritten = true := rfl

end Written

end Value

end PartProgram
