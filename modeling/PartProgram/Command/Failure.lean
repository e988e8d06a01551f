/-
What can go wrong in a run.

Most failures lie with what the user gave: they are reported in the journal and the run ends with a code of its
own.  The others end the run as they are: files that cannot be read or written, values that the readers of
settings and jobs have no words for, integers beyond the range of floats, and integers that cannot be written.
-/
import PartProgram.Config.File
import PartProgram.Files.AtomicWrite
import PartProgram.Job.File
import PartProgram.Journal.Session
import PartProgram.Program.Basic

namespace PartProgram

variable [DigitLimit]

/-- Whether a value was refused as a number: it is not for its size, and it can be told. -/
def NumberError.isRefusal (e : NumberError) : Bool := decide (e.fault ≠ .tooLarge) && e.given.isWritten

/-- Whether settings were refused. -/
def SettingError.isRefusal : SettingError → Bool
  | tooLong _ => false
  | number e => e.isRefusal
  | _ => true

/-- Whether a configuration was refused. -/
def ConfigError.isRefusal : ConfigError → Bool
  | setting e => e.isRefusal
  | unknownKeys _ => true
  | _ => false

/-- Whether a program refused a call, and can tell what it is about. -/
def ProgramError.isRefusal : ProgramError → Bool
  | evaluated name => name.isWritten
  | notOpen name _ => name.isWritten
  | position given _ => given.isWritten
  | mode _ => true
  | number e => e.isRefusal
  | word _ | unwrittenName _ | line _ | stray .. => false

/-- Whether a file is just not there. -/
def FileError.isAbsence (e : FileError) : Bool := decide (e.fault = .missing)

/-- Whether a document was missing or is malformed. -/
def Yaml.LoadError.isRefusal : Yaml.LoadError → Bool
  | missing _ => true
  | unreadable e => e.isAbsence
  | malformed .. => true
  | value _ | beyond _ => false

/-- Whether a configuration file was missing or refused. -/
def ConfigFileError.isRefusal : ConfigFileError → Bool
  | file e => e.isRefusal
  | config e => e.isRefusal
  | _ => true

/-- Whether a job file was missing or refused. -/
def JobFileError.isRefusal : JobFileError → Bool
  | file e => e.isRefusal
  | fields _ => false
  | _ => true

/-- Whether a file was not written because a directory is not there. -/
def WriteError.isAbsence : WriteError → Bool
  | files e => e.isAbsence
  | _ => false

namespace Command

/-- What went wrong in a run. -/
inductive Failure where
  | noPath (e : Path.NotPath)
  | setup (e : SetupError)
  | job (e : JobFileError)
  | configFile (e : ConfigFileError)
  | config (e : ConfigError)
  | directives (e : DirectiveError)
  | noSeed
  | program (e : ProgramError)
  | output (e : WriteError)

namespace Failure

/-- What went wrong, in words. -/
def message : Failure → String
  | noPath e => e.message
  | setup e => e.message
  | job e => e.message
  | configFile e => e.message
  | config e => e.message
  | directives e => e.message
  | noSeed => "The only supported seed types are: None,\nint, float, str, bytes, and bytearray."
  | program e => e.message
  | output e => e.message

/-- Whether the failure is reported in the journal. -/
def isReported : Failure → Bool
  | noPath _ => false
  | setup _ => false
  | job e => e.isRefusal
  | configFile e => e.isRefusal
  | config e => e.isRefusal
  | directives _ => true
  | noSeed => false
  | program e => e.isRefusal
  | output e => e.isAbsence

end Failure

end Command

end PartProgram
