/-
A part program while it is written.

A program is a buffer of lines that only grows, a counter for the lines that carry a number, and the settings
that its directives fall back on.  It is open until it is terminated; evaluating it closes the listing, and
from then on nothing is added any more.

Calls on a program are actions that may fail.  A call that fails keeps what it had written before, so the
program after a failure is part of the result.
-/
import PartProgram.Config.Basic
import PartProgram.Naming.NameSource
import PartProgram.Word.LineNumber
import PartProgram.Word.Motion

namespace PartProgram

/-- Whether directives are still accepted. -/
inductive Phase where
  | opened
  | closed
deriving DecidableEq, Repr, Inhabited

/-- The word for a phase. -/
def Phase.text : Phase → String
  | opened => "open"
  | closed => "closed"

/-- A part program while it is written. -/
structure Program where
  config : Config
  name : Value
  unit : Value
  mode : DistanceMode
  feedrate : Value
  clearance : Value
  /-- The lines so far, with their numbers. -/
  lines : Array String
  /-- What was added although it is no text, with the places among the lines where its plain text stands for it. -/
  strays : Array (Nat × Value)
  /-- The number of the next line that carries one; zero where lines are not numbered. -/
  nextNumber : Nat
  phase : Phase
  /-- The listing, once the program has been evaluated. -/
  listing : Option String
  /-- What was said while the program was written. -/
  notes : Array Note

/-- Why a call on a program fails. -/
inductive ProgramError where
  /-- The listing of the program with this name is finished. -/
  | evaluated (name : Value)
  /-- The program with this name takes no directives in its phase. -/
  | notOpen (name : Value) (phase : Phase)
  | position (given : Value) (e : PositionError)
  | mode (e : UnknownMode)
  | number (e : NumberError)
  /-- There is no word for a number of a motion. -/
  | word (e : WordError)
  /-- A name from a source cannot be written. -/
  | unwrittenName (e : TooLong)
  /-- What is to be numbered is no line. -/
  | line (e : NotLine)
  /-- There is something among the lines that is none, by its place and its kind. -/
  | stray (index : Nat) (kind : String)

/-- The letter and the name of a program. -/
def titleOf (name : Value) : String := nameLetter ++ name.plain

variable [DigitLimit]

/-- What went wrong, in words.  There are no words of its own where the value that they are about cannot be written. -/
def ProgramError.message : ProgramError → String
  | evaluated name =>
    if name.isWritten then "Program " ++ titleOf name ++ " was already evaluated" else TooLong.message ⟨⟩
  | notOpen name phase =>
    if name.isWritten then "Program " ++ titleOf name ++ " is " ++ phase.text ++ "; directives require an open program"
    else TooLong.message ⟨⟩
  | position given e =>
    if given.isWritten then "Invalid position " ++ given.literal ++ ": " ++ e.message else TooLong.message ⟨⟩
  | mode e => e.message
  | number e => e.message
  | word e => e.message
  | unwrittenName e => e.message
  | line e => e.message
  | stray index kind =>
    "sequence item " ++ Decimal.natText index ++ ": expected str instance, " ++ kind ++ " found"

/-- A call on a program. -/
abbrev Writing := EStateM ProgramError Program

namespace Program

/-- The program before anything is written. -/
def blank (config : Config) (name : String) : Program where
  config
  name := .text name
  unit := .text config.unit
  mode := config.mode
  feedrate := config.feedrate
  clearance := config.clearance
  lines := #[]
  strays := #[]
  nextNumber := if config.lineNumbering then 1 else 0
  phase := .opened
  listing := none
  notes := #[]

/-- The program with a line after the others, numbered where lines are and this one is not exempt. -/
def append (line : String) (p : Program) : Program :=
  if p.nextNumber ≠ 0 && !isUnnumbered line then
    { p with
      lines := p.lines.push (lineNumberWord p.nextNumber ++ " " ++ line)
      nextNumber := p.nextNumber + 1 }
  else { p with lines := p.lines.push line }

/-- The program with something after its lines that is no line. -/
def appendStray (v : Value) (p : Program) : Program :=
  { p with lines := p.lines.push v.plain, strays := p.strays.push (p.lines.size, v) }

/-- The program with a note about it.  There is none where a value that it tells cannot be written. -/
def note (told : List Value) (message : String) (p : Program) : Program :=
  { p with notes := if Value.areWritten told then p.notes.push ⟨.program, .debug, message⟩ else p.notes }

/-- The letter and the name of the program. -/
def title (p : Program) : String := titleOf p.name

/-- A short description of the program and of how far it has come. -/
def summary (p : Program) : Except TooLong String := do
  p.name.checkWritten
  p.unit.checkWritten
  return "GCodeProgram(name=" ++ p.name.literal ++ ", unit=" ++ p.unit.literal ++ ", state="
    ++ p.phase.text ++ ", lines=" ++ Decimal.natText p.lines.size ++ ")"

end Program

namespace Writing

/-- Adds a line.  This is possible until the program has been evaluated, whatever its phase. -/
def add (line : String) : Writing Unit := do
  let p ← get
  if p.listing.isSome then throw (.evaluated p.name)
  modify (Program.append line)

/-- Adds a line that may be any value.  Only a text can be numbered; without numbers whatever is given is taken, and
what is no text shows when the listing is made. -/
def addValue : Value → Writing Unit
  | .text line => add line
  | v => do
    let p ← get
    if p.listing.isSome then throw (.evaluated p.name)
    if p.nextNumber ≠ 0 then throw (.line ⟨v.kindName⟩)
    modify (Program.appendStray v)

/-- Fails unless the program is open. -/
def requireOpen : Writing Unit := do
  let p ← get
  if p.phase ≠ .opened then throw (.notOpen p.name p.phase)

end Writing

end PartProgram
