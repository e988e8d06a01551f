/-
Calls by name.

A directive may be asked for by name as well, with its parts as fields.  What a part may be is left to the call.
-/
import PartProgram.Program.Call
import PartProgram.Value.Fields

namespace PartProgram

/-- The kinds of call that add lines. -/
inductive CallKind where
  | setMode
  | rapidMove
  | linearMove
  | dropMill
  | raiseMill
  | startSpindle
  | stopSpindle
  | startCoolant
  | stopCoolant
  | terminate
  | add
deriving DecidableEq, Repr

namespace CallKind

/-- Every kind of call that adds lines. -/
def all : List CallKind :=
  [setMode, rapidMove, linearMove, dropMill, raiseMill, startSpindle, stopSpindle, startCoolant, stopCoolant,
    terminate, add]

/-- The name of a kind. -/
def name : CallKind → String
  | setMode => "set_positioning"
  | rapidMove => "feed_rapid"
  | linearMove => "feed_linear"
  | dropMill => "drop_mill"
  | raiseMill => "raise_mill"
  | startSpindle => "start_spindle"
  | stopSpindle => "stop_spindle"
  | startCoolant => "start_coolant"
  | stopCoolant => "stop_coolant"
  | terminate => "terminate"
  | add => "add"

/-- The kind of a name. -/
def ofName? (name : String) : Option CallKind := all.find? fun k => k.name == name

/-- The fields that a call of the kind is made of. -/
def signature (k : CallKind) : Signature :=
  let fields := Signature.mk ("GCodeProgram." ++ k.name)
  match k with
  | setMode => fields ["positioning"] []
  | rapidMove | linearMove => fields ["position"] [("feedrate", .null)]
  | dropMill => fields [] [("depth", .int 0)]
  | raiseMill => fields [] [("depth", .null)]
  | startSpindle => fields [] [("clockwise", .bool true)]
  | startCoolant => fields [] [("flood", .bool false)]
  | stopSpindle | stopCoolant => fields [] []
  | terminate => fields [] [("force", .bool false)]
  | add => fields ["line"] []

/-- The call of the kind with the given value for each of its fields. -/
def make (k : CallKind) (value : String → Value) : Call :=
  match k with
  | setMode => .setMode (value "positioning")
  | rapidMove => .rapidMove (value "position") (value "feedrate")
  | linearMove => .linearMove (value "position") (value "feedrate")
  | dropMill => .dropMill (value "depth")
  | raiseMill => .raiseMill (value "depth")
  | startSpindle => .startSpindle (value "clockwise")
  | stopSpindle => .stopSpindle
  | startCoolant => .startCoolant (value "flood")
  | stopCoolant => .stopCoolant
  | terminate => .terminate (value "force")
  | add => .addValue (value "line")

/-- The call of the kind that fields make. -/
def ofFields (k : CallKind) (given : Fields) : Except FieldError Call :=
  (k.signature.check given).map fun _ => k.make (k.signature.value given)

end CallKind

end PartProgram
