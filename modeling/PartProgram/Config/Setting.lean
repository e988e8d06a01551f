/-
The settings of a program.

Settings are kept as they were given, one value for each; what they mean is decided when a configuration is
made of them.  Changing a configuration goes back to the values as given, so a later change can bring out what
an earlier reading had passed over.
-/
import PartProgram.Value.Basic

namespace PartProgram

/-- What can be set, in the order of the fields of a configuration. -/
inductive Setting where
  | name
  | start
  | finish
  | unit
  | positioning
  | feedrate
  | clearance
  | lineNumbering
  | strict
deriving DecidableEq, Repr

namespace Setting

/-- Every setting. -/
def all : List Setting :=
  [name, start, finish, unit, positioning, feedrate, clearance, lineNumbering, strict]

/-- The key of a setting. -/
def key : Setting → String
  | name => "name"
  | start => "start"
  | finish => "finish"
  | unit => "unit"
  | positioning => "positioning"
  | feedrate => "feedrate"
  | clearance => "clearance"
  | lineNumbering => "line_numbering"
  | strict => "strict"

/-- The setting a key names. -/
def ofKey? (k : String) : Option Setting := all.find? fun s => s.key == k

end Setting

/-- A value for every setting, as it was given. -/
abbrev Settings := Setting → Value

/-- New values for some settings; of two values for one setting the later counts. -/
abbrev Changes := List (Setting × Value)

namespace Settings

/-- The settings where nothing is given. -/
def standard : Settings
  | .name => .null
  | .start => .null
  | .finish => .null
  | .unit => .text "cm"
  | .positioning => .mode .absolute
  | .feedrate => .int 50
  | .clearance => .int 10
  | .lineNumbering => .bool true
  | .strict => .bool false

/-- The settings with one of them changed. -/
def put (s : Settings) (k : Setting) (v : Value) : Settings := fun k' => if k' = k then v else s k'

/-- The settings with changes made in order. -/
def change (s : Settings) (changes : Changes) : Settings :=
  changes.foldl (fun s c => s.put c.1 c.2) s

end Settings

end PartProgram
