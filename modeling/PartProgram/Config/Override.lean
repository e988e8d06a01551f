/-
Changing a configuration.

Changes are made to the settings as they were given and everything is read again, so a position that was left
open follows a new clearance, and turning the strict policy on brings out what the permissive one passed over.
-/
import PartProgram.Config.Section
import PartProgram.Value.Equality

namespace PartProgram

/-- Whether two positions are equal, axis by axis. -/
def Position.equal (p q : Position) : Bool := p.x.equal q.x && p.y.equal q.y && p.z.equal q.z

namespace Config

variable [DigitLimit]

/-- The configuration with some settings changed. -/
def override (c : Config) (changes : Changes) : Except SettingError Config :=
  ofSettings (c.given.change changes)

/-- What is said while settings are changed. -/
def overrideNotes (c : Config) (changes : Changes) : List Note := notes (c.given.change changes)

/-- The configuration with some settings changed, and what is said meanwhile, the settings being named by
their keys. -/
def overrideFields (c : Config) (fields : Fields) : Except ConfigError Config × List Note :=
  match sectionChanges fields.entries with
  | .ok changes => ((c.override changes).mapError .setting, c.overrideNotes changes)
  | .error e => (.error e, [])

/-- Whether two configurations are equal as they are meant, however their settings were given. -/
def equal (a b : Config) : Bool :=
  a.name == b.name && a.start.equal b.start && a.finish.equal b.finish && a.unit == b.unit &&
    decide (a.mode = b.mode) && a.feedrate.equal b.feedrate && a.clearance.equal b.clearance &&
    a.lineNumbering == b.lineNumbering && a.strict == b.strict

/-- Whether a setting holds the very value that it held before. -/
def keeps (changes : Changes) (old new : Config) (s : Setting) : Bool :=
  changes.all (fun c => decide (c.1 ≠ s)) || ((old.given s).isNull && (new.given s).isNull)

/-- Whether an override left the configuration as it was.  A value that was kept counts as unchanged even
where it is no number and so not equal to itself. -/
def unchanged (changes : Changes) (old new : Config) : Bool :=
  let number (s : Setting) (a b : Value) := keeps changes old new s || a.equal b
  let clearance := number .clearance old.clearance new.clearance
  let position (s : Setting) (a b : Position) :=
    if keeps changes old new s then !(new.given s).isNull || clearance else a.equal b
  old.name == new.name && position .start old.start new.start && position .finish old.finish new.finish &&
    old.unit == new.unit && decide (old.mode = new.mode) &&
    number .feedrate old.feedrate new.feedrate && clearance &&
    old.lineNumbering == new.lineNumbering && old.strict == new.strict

/-- The same for changes whose settings are named by their keys. -/
def unchangedBy (old : Config) (fields : Fields) (new : Config) : Bool :=
  match sectionChanges fields.entries with
  | .ok changes => unchanged changes old new
  | .error _ => false

end Config

end PartProgram
