/-
Opening a program.

A new program begins with the marker, its name, the codes of its unit and of its distance mode, a move up to the
clearance and a move to the start.
-/
import PartProgram.Program.Directive

namespace PartProgram

/-- The word for a distance mode. -/
def DistanceMode.text : DistanceMode → String
  | absolute => "absolute"
  | relative => "relative"

variable [DigitLimit]

/-- Writes the lines that every program begins with. -/
def Writing.begin : Writing Unit := do
  let p ← get
  Writing.add openMarker
  Writing.add p.title
  Writing.add (LengthUnit.code p.config.unit).toWord
  Writing.emitMode p.mode
  Writing.raiseMill .null
  Writing.moveTo .rapid p.config.start p.feedrate
  modify (Program.note [p.name, p.unit] ("Opened program " ++ p.title ++ " (unit=" ++ p.unit.plain ++ ", positioning="
    ++ p.mode.text ++ ")"))

/-- The name of the next program of a configuration, and the source of names after it.  A configuration with a
name of its own leaves the source alone. -/
def Config.nextName (c : Config) (names : NameSource) : String × NameSource :=
  match c.name with
  | some name => (name, names)
  | none => (Text.upper names.next.1.plain, names.next.2)

/-- Refuses a name that the source has next for a configuration, where it cannot be written. -/
def Config.checkName (c : Config) (names : NameSource) : Except ProgramError Unit :=
  if c.name.isSome then .ok () else names.next.1.checkWritten.mapError .unwrittenName

namespace Program

/-- The program of the given name with its first lines written. -/
def openNamed (config : Config) (name : String) : Except ProgramError Program :=
  match Writing.begin.run (blank config name) with
  | .ok () p => .ok p
  | .error e _ => .error e

/-- A new program, and the source of names after it. -/
def openNext (config : Config) (names : NameSource) : Except ProgramError Program × NameSource :=
  let (name, after) := config.nextName names
  (do config.checkName names; openNamed config name, after)

end Program

end PartProgram
