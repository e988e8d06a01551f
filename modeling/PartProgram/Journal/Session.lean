/-
A run of the program and what it leaves behind.

A session holds the disk, the journal, and what was printed and shown on the console.  Setting the journal up and
delivering records are actions on a session.  A setup that fails half way leaves the session as far as it got.
-/
import PartProgram.Files.Disk
import PartProgram.Journal.Basic
import PartProgram.Value.Fields

namespace PartProgram

/-- The disk, the journal and the console. -/
structure Session where
  disk : Disk
  journal : Journal
  /-- What was printed. -/
  printed : String
  /-- What was shown besides: records, and errors in the command line. -/
  shown : String
  /-- Whether what is shown goes to a terminal. -/
  terminal : Bool

/-- What is asked of a journal. -/
structure Setup where
  /-- The name of the threshold. -/
  level : Value
  /-- The file; none where the value counts as false. -/
  file : Value
  form : Form
  colour : Bool
  console : Bool
  context : Context

namespace Setup

/-- What is asked where nothing is said. -/
def standard : Setup := ⟨.text "INFO", .null, .human, true, true, []⟩

/-- The fields that a journal is set up by, besides its context. -/
def signature : Signature := ⟨"setup_logging", [], [
  ("log_level", standard.level), ("log_file", standard.file), ("json", .bool false),
  ("color", .bool standard.colour), ("to_stderr", .bool standard.console)]⟩

/-- What fields ask of a journal. -/
def ofFields (given : Fields) (context : Context) : Except FieldError Setup :=
  let value := signature.value given
  (signature.check given).map fun _ => {
    level := value "log_level", file := value "log_file", form := if (value "json").isTrue then .json else .human
    colour := (value "color").isTrue, console := (value "to_stderr").isTrue, context }

end Setup

/-- Why a journal is not set up. -/
inductive SetupError where
  | unknownLevel (given : String)
  /-- The level is no text, but of this kind. -/
  | namelessLevel (kind : String)
  | noPath (e : Path.NotPath)
  | file (e : FileError)
deriving DecidableEq, Repr

/-- What went wrong, in words. -/
def SetupError.message : SetupError → String
  | unknownLevel given => "Unknown log level: " ++ given
  | namelessLevel kind => "'" ++ kind ++ "' object has no attribute 'upper'"
  | noPath e => e.message
  | file e => e.message

namespace Session

/-- A session on a tree before anything is done. -/
def initial (t : FileTree) (terminal : Bool) : Session := ⟨⟨t, []⟩, .initial, "", "", terminal⟩

/-- Work on the journal. -/
def onJournal {ε : Type} (f : Journal → Journal) : EStateM ε Session Unit :=
  modify fun s => { s with journal := f s.journal }

/-- Shows a text. -/
def putShown {ε : Type} (text : String) : EStateM ε Session Unit :=
  modify fun s => { s with shown := s.shown ++ text }

/-- Prints a text. -/
def putPrinted {ε : Type} (text : String) : EStateM ε Session Unit :=
  modify fun s => { s with printed := s.printed ++ text }

/-- The session after the disk has changed: the latest `count` operations are new, and the files of the journal
are found where they are now. -/
def withDisk (s : Session) (d : Disk) : Session :=
  let new := (d.done.take (d.done.length - s.disk.done.length)).reverse
  { s with disk := d, journal := new.foldl (fun j op => j.follow d.tree op) s.journal }

/-- Work on files. -/
def onDisk {ε δ α : Type} (wrap : δ → ε) (work : EStateM δ Disk α) : EStateM ε Session α := fun s =>
  match work.run s.disk with
  | .ok a d => .ok a (s.withDisk d)
  | .error e d => .error (wrap e) (s.withDisk d)

/-- The threshold that a value names. -/
def threshold : Value → Except SetupError Int
  | .text name => match levelOfName? name with
    | some level => .ok level
    | none => .error (.unknownLevel name)
  | v => .error (.namelessLevel v.kindName)

/-- The outlet to a file, which is opened for it. -/
def openFile (file : Value) (form : Form) : EStateM SetupError Session OutletKind := do
  match Path.ofValue? file with
  | .error e => throw (.noPath e)
  | .ok path =>
    onDisk .file (FileWork.ensureDirectory path.parent)
    onDisk .file (FileWork.perform (.open_ path))
    return .file ((← get).disk.tree.place path).toOption form

/-- Sets the journal up: a threshold, and new outlets of its own in place of the last ones.  The level is checked
first; from then on the last outlets are gone, whether or not the file can be opened. -/
def setUp (what : Setup) : EStateM SetupError Session Unit := do
  match threshold what.level with
  | .error e => throw e
  | .ok level =>
    onJournal fun j => { j.release with threshold := level }
    if what.console then
      let terminal := (← get).terminal
      onJournal (Journal.make (.console (what.colour && terminal)))
    if what.file.isTrue then
      let kind ← openFile what.file what.form
      onJournal (Journal.make kind)
    onJournal Journal.attachOwn
    onJournal (Journal.push what.context)

/-- The session with a line added to a file of the journal.  A file without a place takes it all the same, where
nobody sees it. -/
def appendLine (line : String) (place : Option Place) (s : Session) : Session :=
  match place with
  | none => s
  | some place => match (FileWork.perform (.append ⟨place⟩ (line ++ "\n"))).run s.disk with
    | .ok () d => s.withDisk d
    | .error _ d => s.withDisk d

variable [DigitLimit]

/-- The session with a record written to one outlet.  A record that cannot be written is left out. -/
def write (r : Record) (s : Session) (o : Outlet) : Session :=
  match o.kind with
  | .console colour => match r.text .human colour s.journal.context with
    | .ok line => { s with shown := s.shown ++ line ++ "\n" }
    | .error _ => s
  | .file place form => match r.text form false s.journal.context with
    | .ok line => s.appendLine line place
    | .error _ => s
  | .other => s

/-- The session with the message of a record shown without columns, where it is a warning or worse. -/
def showPlain (r : Record) (s : Session) : Session :=
  if r.level < Severity.warning.number then s
  else match r.message with
    | .ok message => { s with shown := s.shown ++ message ++ "\n" }
    | .error _ => s

/-- The session with a record delivered: to every outlet, or plainly where there are none at all. -/
def deliver (r : Record) (s : Session) : Session :=
  if s.journal.takes r.level then
    let s := { s with journal := s.journal.take r }
    if s.journal.attached.isEmpty then s.showPlain r else s.journal.attached.foldl (write r) s
  else s

end Session

end PartProgram
