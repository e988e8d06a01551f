/-
The directives of a job file.

A directive names what is to be done and has a fixed set of fields, of which each kind uses a few; the others
are checked all the same.  What a directive accepts is turned into an operation, and that may still fail:
whether a token names a distance mode and whether a text is a single line is not looked at before.
-/
import PartProgram.Job.Reading
import PartProgram.Operation.Basic

namespace PartProgram

/-- What a directive can ask for. -/
inductive DirectiveKind where
  | setPositioning
  | feedRapid
  | feedLinear
  | dropMill
  | raiseMill
  | startSpindle
  | stopSpindle
  | startCoolant
  | stopCoolant
  | terminate
  | raw
deriving DecidableEq, Repr

namespace DirectiveKind

/-- Every kind of directive. -/
def all : List DirectiveKind :=
  [setPositioning, feedRapid, feedLinear, dropMill, raiseMill, startSpindle, stopSpindle, startCoolant,
    stopCoolant, terminate, raw]

/-- The word for a kind of directive. -/
def text : DirectiveKind → String
  | setPositioning => "set_positioning"
  | feedRapid => "feed_rapid"
  | feedLinear => "feed_linear"
  | dropMill => "drop_mill"
  | raiseMill => "raise_mill"
  | startSpindle => "start_spindle"
  | stopSpindle => "stop_spindle"
  | startCoolant => "start_coolant"
  | stopCoolant => "stop_coolant"
  | terminate => "terminate"
  | raw => "raw"

/-- Reads the word for a kind of directive. -/
def read : Value → Checked DirectiveKind
  | .text s => match all.find? fun k => k.text == s with
    | some k => .accepted k
    | none => .problem (.notChoice (all.map text))
  | _ => .problem (.notChoice (all.map text))

end DirectiveKind

/-- A position as a directive spells it: axis by axis in order, or by the names of the axes. -/
inductive PositionSpec where
  | listed (axes : List (Option Float))
  | named (axes : List (String × Option Float))

/-- A number that may be missing, as a value. -/
def Value.ofFloat? : Option Float → Value
  | some x => .float x
  | none => .null

namespace PositionSpec

/-- The position as a value. -/
def toValue : PositionSpec → Value
  | listed axes => .list (axes.map Value.ofFloat?)
  | named axes => .map (axes.map fun (k, x) => (.text k, Value.ofFloat? x))

/-- The keys that are no axes, in alphabetical order. -/
def strangeKeys (axes : List (String × Option Float)) : List String :=
  ((axes.map (·.1)).filter fun k => !(["x", "y", "z"].contains (Text.lower k))).mergeSort

/-- Looks at how many axes there are and how they are named. -/
def check : PositionSpec → Checked PositionSpec
  | listed axes =>
    if axes.length ≤ 3 then .accepted (listed axes)
    else .problem (.breaks (.tooManyComponents axes.length))
  | named axes =>
    if (strangeKeys axes).isEmpty then .accepted (named axes)
    else .problem (.breaks (.unknownAxes (strangeKeys axes)))

/-- Reads a position.  When it is neither a list nor a map of numbers, the issues of both are reported. -/
def read (v : Value) : Checked PositionSpec :=
  match Field.list (Field.optional Field.number) v with
  | .accepted axes => check (listed axes)
  | .refused asList => match Field.map (Field.optional Field.number) v with
    | .accepted axes => check (named axes)
    | .refused asMap => .refused
      (asList.map (·.under (.key "list[nullable[float]]")) ++
        asMap.map (·.under (.key "dict[str,nullable[float]]")))

end PositionSpec

/-- A distance mode as a directive spells it. -/
inductive ModeToken where
  | text (s : String)
  | int (i : Int)
deriving DecidableEq, Repr

namespace ModeToken

/-- The token as a value. -/
def toValue : ModeToken → Value
  | text s => .text s
  | int i => .int i

/-- Reads a token.  When it is neither a text nor an integer, the issues of both are reported. -/
def read (v : Value) : Checked ModeToken :=
  match Field.text v with
  | .accepted s => .accepted (text s)
  | .refused asText => match Field.integer v with
    | .accepted i => .accepted (int i)
    | .refused asInt => .refused
      (asText.map (·.under (.key "str")) ++ asInt.map (·.under (.key "int")))

end ModeToken

/-- A directive with all of its fields. -/
structure Directive where
  kind : DirectiveKind
  position : Option PositionSpec
  feedrate : Option Float
  depth : Option Float
  clockwise : Bool
  flood : Bool
  force : Bool
  positioning : Option ModeToken
  text : Option String

namespace Directive

/-- The keys of the fields. -/
def keys : List String :=
  ["op", "position", "feedrate", "depth", "clockwise", "flood", "force", "positioning", "text"]

/-- A value that may be missing. -/
def orNull {α : Type} (f : α → Value) : Option α → Value
  | some a => f a
  | none => .null

/-- The fields as values, with their keys. -/
def fields (d : Directive) : List (String × Value) := [
  ("op", .text d.kind.text),
  ("position", orNull PositionSpec.toValue d.position),
  ("feedrate", Value.ofFloat? d.feedrate),
  ("depth", Value.ofFloat? d.depth),
  ("clockwise", .bool d.clockwise),
  ("flood", .bool d.flood),
  ("force", .bool d.force),
  ("positioning", orNull ModeToken.toValue d.positioning),
  ("text", orNull .text d.text)]

/-- Looks whether the fields are there that the kind cannot do without. -/
def complete (d : Directive) : Checked Directive :=
  let lacking (field : String) : Checked Directive := .problem (.breaks (.lacking d.kind.text field))
  match d.kind, d.position, d.positioning, d.text with
  | .feedRapid, none, _, _ => lacking "position"
  | .feedLinear, none, _, _ => lacking "position"
  | .setPositioning, _, none, _ => lacking "positioning"
  | .raw, _, _, none => lacking "text"
  | .raw, _, _, some s => if s.isEmpty then lacking "text" else .accepted d
  | _, _, _, _ => .accepted d

/-- Reads the fields of a directive. -/
def readFields (es : List (Value × Value)) : Checked Directive :=
  ((Field.under "op" (.problem .missing) DirectiveKind.read es).map Directive.mk)
    |>.beside (Field.under "position" (.accepted none) (Field.optional PositionSpec.read) es)
    |>.beside (Field.under "feedrate" (.accepted none) (Field.optional Field.number) es)
    |>.beside (Field.under "depth" (.accepted none) (Field.optional Field.number) es)
    |>.beside (Field.under "clockwise" (.accepted true) Field.truth es)
    |>.beside (Field.under "flood" (.accepted false) Field.truth es)
    |>.beside (Field.under "force" (.accepted false) Field.truth es)
    |>.beside (Field.under "positioning" (.accepted none) (Field.optional ModeToken.read) es)
    |>.beside (Field.under "text" (.accepted none) (Field.optional Field.text) es)

/-- The directive that the entries of a map make. -/
def ofEntries (es : List (Value × Value)) : Checked Directive :=
  ((readFields es).map (fun d _ => d)).beside (Field.noOthers keys es) |>.andThen complete

/-- Reads a directive. -/
def read : Value → Checked Directive
  | .map es => ofEntries es
  | _ => .problem .notDirective

/-- The operation that the directive asks for. -/
def operation [DigitLimit] (d : Directive) : Except OperationError Operation :=
  let position := orNull PositionSpec.toValue d.position
  match d.kind with
  | .setPositioning => Operation.ofMode (orNull ModeToken.toValue d.positioning)
  | .feedRapid => Operation.ofRapid position (Value.ofFloat? d.feedrate)
  | .feedLinear => Operation.ofLinear position (Value.ofFloat? d.feedrate)
  | .dropMill => .ok (.dropMill (match d.depth with
    | some x => .float x
    | none => .int 0))
  | .raiseMill => .ok (.raiseMill (Value.ofFloat? d.depth))
  | .startSpindle => .ok (.startSpindle (.bool d.clockwise))
  | .stopSpindle => .ok .stopSpindle
  | .startCoolant => .ok (.startCoolant (.bool d.flood))
  | .stopCoolant => .ok .stopCoolant
  | .terminate => .ok (.terminate (.bool d.force))
  | .raw => Operation.ofText (orNull .text d.text)

end Directive

end PartProgram
