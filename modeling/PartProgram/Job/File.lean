/-
Jobs from files.
-/
import PartProgram.Job.Basic
import PartProgram.Yaml.File

namespace PartProgram

/-- Why a file gives no job. -/
inductive JobFileError where
  | missing (p : Path)
  | file (e : Yaml.LoadError)
  | notMap (p : Path)
  | fields (e : FieldError)
  | invalid (p : Path) (issues : List Issue)

/-- A path as it is shown. -/
def PathStep.text : PathStep → String
  | key k => k
  | index i => Decimal.intText i

/-- An issue on one line. -/
def Issue.message (i : Issue) : String :=
  let path := ".".intercalate (i.path.map PathStep.text)
  (if path.isEmpty then "" else path ++ ": ") ++ i.problem.message

/-- What went wrong, in words. -/
def JobFileError.message [DigitLimit] : JobFileError → String
  | missing p => "Job file not found: " ++ p.text
  | file e => e.message
  | notMap p => "Job file must contain a mapping: " ++ p.text
  | fields e => e.message
  | invalid p issues =>
    "Job validation failed at " ++ p.text ++ ": " ++ "; ".intercalate (issues.map Issue.message)

namespace Job

/-- The job in a file. -/
def load [Yaml.Reader] (t : FileTree) (p : Path) : Except JobFileError Job := do
  if !(← (t.look p).mapError (.file ∘ .unreadable)) then throw (.missing p)
  match ← (Yaml.loadFile t p).mapError .file with
  | .map es =>
    match ofEntries (← (Fields.ofEntries es).mapError .fields).entries with
    | .accepted job => return job
    | .refused issues => throw (.invalid p issues)
  | _ => throw (.notMap p)

end Job

end PartProgram
