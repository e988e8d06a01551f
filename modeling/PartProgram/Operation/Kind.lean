/-
Operations by name.

An operation may be asked for by the name of its kind, with its parts as fields.  Moves need a position and a switch
of the distance mode needs a mode; everything else has a value that stands in for it.
-/
import PartProgram.Operation.Basic

namespace PartProgram

/-- The kinds of operation that a program can carry out. -/
inductive OperationKind where
  | setMode
  | rapidMove
  | linearMove
  | dropMill
  | raiseMill
  | startSpindle
  | stopSpindle
  | startCoolant
  | stopCoolant
  | terminate
  | rawLine
deriving DecidableEq, Repr

namespace OperationKind

/-- Every kind of operation. -/
def all : List OperationKind :=
  [setMode, rapidMove, linearMove, dropMill, raiseMill, startSpindle, stopSpindle, startCoolant, stopCoolant,
    terminate, rawLine]

/-- The name of a kind. -/
def name : OperationKind → String
  | setMode => "SetPositioning"
  | rapidMove => "RapidMove"
  | linearMove => "LinearMove"
  | dropMill => "DropMill"
  | raiseMill => "RaiseMill"
  | startSpindle => "StartSpindle"
  | stopSpindle => "StopSpindle"
  | startCoolant => "StartCoolant"
  | stopCoolant => "StopCoolant"
  | terminate => "Terminate"
  | rawLine => "RawLine"

/-- The kind of a name. -/
def ofName? (name : String) : Option OperationKind := all.find? fun k => k.name == name

/-- The fields that an operation of the kind is made of. -/
def signature (k : OperationKind) : Signature :=
  let fields := Signature.mk (k.name ++ ".__init__")
  match k with
  | setMode => fields ["positioning"] []
  | rapidMove | linearMove => fields ["position"] [("feedrate", .null)]
  | dropMill => fields [] [("depth", .int 0)]
  | raiseMill => fields [] [("depth", .null)]
  | startSpindle => fields [] [("clockwise", .bool true)]
  | startCoolant => fields [] [("flood", .bool false)]
  | stopSpindle | stopCoolant => fields [] []
  | terminate => fields [] [("force", .bool false)]
  | rawLine => fields [] [("text", .text "")]

variable [DigitLimit]

/-- The operation of the kind with the given value for each of its fields. -/
def make (k : OperationKind) (value : String → Value) : Except OperationError Operation :=
  match k with
  | setMode => Operation.ofMode (value "positioning")
  | rapidMove => Operation.ofRapid (value "position") (value "feedrate")
  | linearMove => Operation.ofLinear (value "position") (value "feedrate")
  | dropMill => .ok (.dropMill (value "depth"))
  | raiseMill => .ok (.raiseMill (value "depth"))
  | startSpindle => .ok (.startSpindle (value "clockwise"))
  | stopSpindle => .ok .stopSpindle
  | startCoolant => .ok (.startCoolant (value "flood"))
  | stopCoolant => .ok .stopCoolant
  | terminate => .ok (.terminate (value "force"))
  | rawLine => Operation.ofText (value "text")

/-- The operation of the kind that fields make. -/
def ofFields (k : OperationKind) (given : Fields) : Except OperationError Operation :=
  match k.signature.check given with
  | .ok () => k.make (k.signature.value given)
  | .error e => .error (.fields e)

end OperationKind

namespace Operation

variable [DigitLimit]

/-- The fields of a line through points, besides the points. -/
def polylineSignature : Signature := ⟨"polyline", [], [("feedrate", .null)]⟩

/-- The linear moves through points in order that fields make. -/
def polylineOfFields (points : Value) (given : Fields) : Except OperationError (List Operation) :=
  match polylineSignature.check given with
  | .ok () => polyline points (polylineSignature.value given "feedrate")
  | .error e => .error (.fields e)

end Operation

end PartProgram
