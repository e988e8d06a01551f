/-
Configurations from files.

A configuration file is a map whose entry `program` is a section of settings.  Where no file is named the
standard settings are used, which come with the program.
-/
import PartProgram.Config.Section
import PartProgram.Yaml.File

namespace PartProgram

/-- Why a file gives no configuration. -/
inductive ConfigFileError where
  | missing (p : Path)
  | file (e : Yaml.LoadError)
  | empty (p : Path)
  | noSection (p : Path)
  | sectionNotMap (kind : String)
  | config (e : ConfigError)

variable [DigitLimit]

/-- What went wrong, in words. -/
def ConfigFileError.message : ConfigFileError → String
  | missing p => "Configuration file not found: " ++ p.text
  | file e => e.message
  | empty p => "Empty configuration file: " ++ p.text
  | noSection p => "Missing 'program' section in " ++ p.text
  | sectionNotMap kind => "'program' section must be a mapping, got " ++ kind
  | config e => e.message

namespace Config

/-- The section of the standard settings. -/
def standardSection : Value := .map [
  (.text "unit", .text "cm"),
  (.text "positioning", .text "absolute"),
  (.text "feedrate", .int 50),
  (.text "clearance", .int 10),
  (.text "start", .list [.int 0, .int 0, .int 10]),
  (.text "finish", .list [.int 0, .int 0, .int 10]),
  (.text "line_numbering", .bool true),
  (.text "strict", .bool false)]

/-- The name that messages give to the place of the standard settings, which is not one on the disk. -/
def standardPlace : String := "<pkg>/configs/program.yaml"

/-- The section that a document holds. -/
def sectionOf (p : Path) : Value → Except ConfigFileError Value
  | .null => .error (.empty p)
  | .map es => match Value.entry? "program" es with
    | none => .error (.noSection p)
    | some .null => .ok .null
    | some (.map es) => .ok (.map es)
    | some v => .error (.sectionNotMap v.kindName)
  | _ => .error (.noSection p)

variable [Yaml.Reader]

/-- The section in a file. -/
def loadSection (t : FileTree) (p : Path) : Except ConfigFileError Value := do
  if !(← (t.look p).mapError (.file ∘ .unreadable)) then throw (.missing p)
  sectionOf p (← (Yaml.loadFile t p).mapError .file)

/-- What is said before a configuration is loaded from the named place. -/
def loading (place : String) : Note := ⟨.settings, .info, "Loading configuration from " ++ place⟩

/-- What is said before a configuration is read, which is nothing where there is no file. -/
def loadingNotes (t : FileTree) : Option Path → List Note
  | none => [loading standardPlace]
  | some p => if t.isThere p then [loading p.text] else []

/-- The configuration in a file, or the standard one, and what is said while it is made. -/
def readFile (t : FileTree) : Option Path → Except ConfigFileError Config × List Note
  | none => ((ofSection standardSection).mapError .config, sectionNotes standardSection)
  | some p => match loadSection t p with
    | .ok v => ((ofSection v).mapError .config, sectionNotes v)
    | .error e => (.error e, [])

/-- The configuration in a file, or the standard one, and what is said while it is loaded. -/
def load (t : FileTree) (p : Option Path) : Except ConfigFileError Config × List Note :=
  ((readFile t p).1, loadingNotes t p ++ (readFile t p).2)

end Config

end PartProgram
