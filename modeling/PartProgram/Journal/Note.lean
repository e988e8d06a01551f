/-
What a part of the program has to say.

A note is a message with its severity and the part it comes from.  Configuring and building are pure, so they
hand over their notes as values; formatting and delivering them is the business of the journal.
-/

namespace PartProgram

/-- How much a note matters. -/
inductive Severity where
  | debug
  | info
  | warning
  | error
  | critical
deriving DecidableEq, Repr

/-- The number of a severity. -/
def Severity.number : Severity → Int
  | debug => 10
  | info => 20
  | warning => 30
  | error => 40
  | critical => 50

/-- The part of the program a note comes from. -/
inductive Channel where
  | settings
  | program
  | generator
  | command
deriving DecidableEq, Repr

/-- The name of a channel, as journal lines give it. -/
def Channel.name : Channel → String
  | settings => "cnc_gcode.configs.loader"
  | program => "cnc_gcode.gcode.program"
  | generator => "cnc_gcode.gcode.generator"
  | command => "cnc_gcode.scripts.generate"

/-- A message, how much it matters and where it comes from. -/
structure Note where
  channel : Channel
  severity : Severity
  message : String
deriving DecidableEq, Repr

end PartProgram
