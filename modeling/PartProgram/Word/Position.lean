/-
Positions.

A position names up to three axes; an axis that is missing is not moved.  It may be given as a sequence, whose
items go to the axes in order, or as a map from axis letters of either case.  The keys of a map are read by their
texts, so all of them must be ones that can be written.
-/
import PartProgram.Text.Case
import PartProgram.Value.Printer

namespace PartProgram

/-- A target with optional axes: nothing stands for an axis that is missing. -/
structure Position where
  x : Value
  y : Value
  z : Value
deriving Inhabited

/-- Why a value is no position. -/
inductive PositionError where
  /-- A sequence has more items than there are axes. -/
  | tooMany (count : Nat)
  /-- The value is neither a sequence nor a map. -/
  | wrongKind (kind : String)
  /-- A key of a map cannot be written. -/
  | key (e : TooLong)
deriving DecidableEq, Repr

namespace PositionError

/-- What went wrong, in words. -/
def message [DigitLimit] : PositionError → String
  | tooMany count => "position takes at most 3 components, got " ++ Decimal.natText count
  | wrongKind kind => "position must be a sequence or mapping, got " ++ kind
  | key e => e.message

end PositionError

namespace Position

/-- The value a map gives for an axis: of the keys that read as its letter, the last one counts. -/
def axisEntry (axis : String) (entries : List (Value × Value)) : Value :=
  entries.foldl (fun found (k, v) => if Text.lower k.plain = axis then v else found) .null

/-- The position a sequence of values gives. -/
def ofItems? : List Value → Except PositionError Position
  | [] => .ok ⟨.null, .null, .null⟩
  | [x] => .ok ⟨x, .null, .null⟩
  | [x, y] => .ok ⟨x, y, .null⟩
  | [x, y, z] => .ok ⟨x, y, z⟩
  | items => .error (.tooMany items.length)

/-- The position the entries of a map give. -/
def ofEntries? [DigitLimit] (entries : List (Value × Value)) : Except PositionError Position :=
  if entries.all fun e => e.1.isWritten then
    .ok ⟨axisEntry "x" entries, axisEntry "y" entries, axisEntry "z" entries⟩
  else .error (.key ⟨⟩)

/-- The position a value gives. -/
def ofValue? [DigitLimit] : Value → Except PositionError Position
  | .position x y z => .ok ⟨x, y, z⟩
  | .map entries => ofEntries? entries
  | .list items => ofItems? items
  | .tuple items => ofItems? items
  | v => .error (.wrongKind v.kindName)

/-- The position as a value. -/
def toValue (p : Position) : Value := .position p.x p.y p.z

@[simp]
theorem ofValue?_toValue [DigitLimit] (p : Position) : ofValue? p.toValue = .ok p := rfl

/-- The axes that are present, with their letters, in the order X, Y, Z. -/
def components (p : Position) : List (String × Value) :=
  [("X", p.x), ("Y", p.y), ("Z", p.z)].filter fun c => !c.2.isNull

end Position

end PartProgram
