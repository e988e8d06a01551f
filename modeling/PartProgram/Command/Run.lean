/-
A run of the command.

A run reads a job, makes its program, and prints the listing or writes it to a file.  What the parts of the
program have to say goes into the journal, with the name of the job file and, from the moment that the program is
there to the end of the run, the name of the program.

What reads the documents is given to a run from outside.
-/
import PartProgram.Command.Arguments
import PartProgram.Command.Failure
import PartProgram.Command.Usage
import PartProgram.Operation.Generator

namespace PartProgram.Command

/-- How a run ends. -/
inductive Ending where
  /-- It came to its end, with a code that tells whether there is a listing. -/
  | finished (code : Nat)
  /-- It did not begin, since the command line is wrong or asks for help. -/
  | notBegun (code : Nat)
  | failed (e : Failure)

/-- The code that the command gives back. -/
def Ending.code : Ending → Nat
  | finished code => code
  | notBegun code => code
  | failed _ => 1

/-- What is asked of the journal. -/
def Arguments.setup (a : Arguments) (job : Path) : Setup :=
  { Setup.standard with
    level := a.logLevel.toValue
    file := a.logFile.elim .null .text
    form := if a.logJson then .json else .human
    context := [("job", .text job.name)] }

/-- The source of the names of programs, which needs a seed. -/
def Arguments.names (a : Arguments) : Except Failure NameSource :=
  match a.seed with
  | .just seed => .ok (.ofSeed seed)
  | .nothing => .error .noSeed

/-- The settings that the command line overrides. -/
def Arguments.changes (a : Arguments) : Fields := if a.strict then [("strict", .bool true)] else []

variable [DigitLimit] [Yaml.Reader]

/-- Work in a run. -/
abbrev Work := EStateM Failure Session

namespace Work

/-- Puts notes into the journal. -/
def say (now : Instant) (notes : List Note) : Work Unit :=
  modify fun s => notes.foldl (fun s n => s.deliver (.ofNote now n)) s

/-- Goes on with a result, or ends the run with its error. -/
def need {α ε : Type} (wrap : ε → Failure) : Except ε α → Work α
  | .ok a => pure a
  | .error e => throw (wrap e)

/-- The configuration of a job.  A configuration file counts only for a job without settings. -/
def configuration (now : Instant) (a : Arguments) (job : Job) : Work Config := do
  let fallback ←
    if job.settings.isSome then pure none
    else do
      let place ← need .noPath (a.config.mapM fun file => Path.ofValue? file.toValue)
      -- What is said before the reading is in the file already when that file is the one to be read.
      say now (Config.loadingNotes (← get).disk.tree place)
      let (loaded, notes) := Config.readFile (← get).disk.tree place
      say now notes
      some <$> need .configFile loaded
  let (made, notes) := job.config fallback a.changes
  say now notes
  need .config made

/-- A program with operations carried out on it. -/
def building (now : Instant) (g : Generator) (ops : List Operation) : Work Program := do
  match (g.build ops).1 with
  | .written p =>
    say now p.notes.toList
    return p
  | .stopped e p =>
    say now p.notes.toList
    throw (.program e)
  | .unopened e => throw (.program e)

/-- The listing of a program. -/
def listing (now : Instant) (p : Program) : Work String := do
  let (result, after) := match Writing.eval.run p with
    | .ok listing after => (Except.ok listing, after)
    | .error e after => (.error e, after)
  say now (after.notes.toList.drop p.notes.size)
  need .program result

/-- What is said of a listing that was written to a file. -/
def written (listing file : String) : Note :=
  let count := listing.toList.count '\n' + 1
  ⟨.command, .info, "Wrote " ++ Decimal.natText count ++ " lines to " ++ file⟩

/-- Writes a listing to a file, or prints it where none is named. -/
def deliver (now : Instant) (listing : String) : Option String → Work Unit
  | none | some "" => Session.putPrinted (listing ++ "\n")
  | some file => do
    Session.onDisk .output (AtomicWrite.writeText (.ofText file) listing)
    say now [written listing file]

/-- A run behind the setup of the journal, with the place of the job. -/
def render (now : Instant) (a : Arguments) (place : Path) : Work Unit := do
  let job ← need .job (Job.load (← get).disk.tree place)
  let config ← configuration now a job
  let ops ← need .directives job.operations
  let names ← need id a.names
  let p ← building now ⟨config, some names⟩ ops
  Session.onJournal (Journal.push [("program", .text p.title)])
  deliver now (← listing now p) a.output

/-- What is said of a failure. -/
def reported (e : Failure) : Note := ⟨.command, .error, e.message⟩

end Work

/-- A run with the given arguments, and the session after it.  Whatever happens, the name of the program leaves the
context. -/
def runArguments (now : Instant) (a : Arguments) (s : Session) : Ending × Session :=
  let ended (s : Session) : Session := { s with journal := s.journal.pop ["program"] }
  match Path.ofValue? a.job.toValue with
  | .error e => (.failed (.noPath e), s)
  | .ok job => match (Session.setUp (a.setup job)).run s with
    | .error e s => (.failed (.setup e), s)
    | .ok () s => match (Work.render now a job).run s with
      | .ok () s => (.finished 0, ended s)
      | .error e s =>
        if e.isReported then (.finished 1, ended (s.deliver (.ofNote now (Work.reported e))))
        else (.failed e, ended s)

/-- A run with the given command line, and the session after it. -/
def run (now : Instant) (args : List String) (s : Session) : Ending × Session :=
  match Request.read args with
  | .error e => (.notBegun 2, { s with shown := s.shown ++ e.shown })
  | .ok .help => (.notBegun 0, { s with printed := s.printed ++ explanation })
  | .ok (.run a) => runArguments now a s

end PartProgram.Command
