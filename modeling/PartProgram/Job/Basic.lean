/-
Jobs.

A job pairs the settings of a program with a list of directives.  Its settings may be left out altogether, and
then a fallback configuration takes their place; changes are made to whichever of the two is used.
-/
import PartProgram.Config.Override
import PartProgram.Job.Directive

namespace PartProgram

/-- A job. -/
structure Job where
  version : String
  settings : Option Fields
  directives : List Directive

/-- Why the directives of a job make no operations. -/
structure DirectiveError where
  cause : OperationError

variable [DigitLimit]

/-- What went wrong, in words. -/
def DirectiveError.message (e : DirectiveError) : String := "Invalid directive: " ++ e.cause.message

namespace Job

/-- The version that a job file may name. -/
def knownVersion : String := "job.v1"

/-- Reads a version. -/
def readVersion (v : Value) : Checked String :=
  (Field.text v).andThen fun s =>
    if s = knownVersion then .accepted s else .problem (.breaks (.unknownSchema s))

/-- The key that gives the version: the short one where both are there. -/
def versionKey (es : List (Value × Value)) : String :=
  if (Value.entry? "schema" es).isNone && (Value.entry? "schema_version" es).isSome then "schema_version"
  else "schema"

/-- The job that the entries of a map make. -/
def ofEntries (es : List (Value × Value)) : Checked Job :=
  ((Field.under (versionKey es) (.accepted knownVersion) readVersion es).map Job.mk)
    |>.beside (Field.under "program" (.accepted none) (Field.optional (Field.map .accepted)) es)
    |>.beside (Field.under "directives" (.accepted []) (Field.list Directive.read) es)
    |>.map (fun job _ => job)
    |>.beside (Field.noOthers [versionKey es, "program", "directives"] es)

/-- The entries of the settings under the given changes, a setting that is changed keeping its place. -/
def changedSettings (settings changes : Fields) : Value :=
  .map (changes.foldl (fun es (k, v) => Value.putEntry (.text k) v es) settings.entries)

/-- The configuration of the job, and what is said while it is made.  Without changes a fallback is taken as it
is. -/
def config (job : Job) (fallback : Option Config) (changes : Fields) :
    Except ConfigError Config × List Note :=
  match job.settings with
  | some settings =>
    let v := changedSettings settings changes
    (Config.ofSection v, Config.sectionNotes v)
  | none =>
    let base := fallback.getD Config.standard
    if changes.isEmpty then (.ok base, []) else base.overrideFields changes

/-- The operations that the directives ask for, one for each. -/
def operations (job : Job) : Except DirectiveError (List Operation) :=
  (job.directives.mapM Directive.operation).mapError .mk

/-- The settings as a value. -/
def settingsValue (job : Job) : Value :=
  match job.settings with
  | some fields => .map fields.entries
  | none => .null

end Job

end PartProgram
