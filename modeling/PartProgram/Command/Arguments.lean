/-
What a command line asks for.

The words of a command line are taken one after another.  A switch that needs a value takes the next word, which
has to be one; the last value of a switch counts.  Two dashes are no value: attached to a switch they leave it empty.
Words that belong to no switch are complained about at the end, after a missing job.
-/
import PartProgram.Command.Switch
import PartProgram.Decimal.Numeral
import PartProgram.Value.Basic

namespace PartProgram.Command

/-- What a switch is given, which may be nothing. -/
inductive Given (α : Type) where
  | nothing
  | just (a : α)
deriving DecidableEq, Repr

/-- What a switch is given as a value: an empty list where it is nothing. -/
def Given.toValue : Given String → Value
  | nothing => .list []
  | just s => .text s

/-- What a run is asked to do. -/
structure Arguments where
  job : Given String
  config : Option (Given String)
  output : Option String
  seed : Given Int
  strict : Bool
  logLevel : Given String
  logFile : Option String
  logJson : Bool
deriving DecidableEq, Repr

/-- What a command line asks for. -/
inductive Request where
  | help
  | run (a : Arguments)
deriving DecidableEq, Repr

/-- The levels that the command line takes. -/
def levels : List String := ["DEBUG", "INFO", "WARNING", "ERROR"]

/-- A command line taken up to some word. -/
structure Draft where
  job : Option (Given String)
  config : Option (Given String)
  output : Option String
  seed : Given Int
  strict : Bool
  logLevel : Given String
  logFile : Option String
  logJson : Bool
  /-- The words that belong to no switch. -/
  extra : List String
  /-- The switch that waits for its value, and whether help was asked for before it. -/
  pending : Option (Switch × Bool)

/-- What ends the taking of words early. -/
inductive Stop where
  | help
  | refused (e : UsageError)

variable [DigitLimit]

namespace Draft

/-- The draft before any word. -/
def start : Draft := ⟨none, none, none, .just 0, false, .just "WARNING", none, false, [], none⟩

/-- The draft with a switch that is left empty.  For a file to write this is as good as none. -/
def empty (d : Draft) (s : Switch) : Draft :=
  match s with
  | .job => { d with job := some .nothing }
  | .config => { d with config := some .nothing }
  | .output => { d with output := none }
  | .seed => { d with seed := .nothing }
  | .logLevel => { d with logLevel := .nothing }
  | .logFile => { d with logFile := none }
  | .help | .strict | .logJson => d

/-- The draft with a value for a switch. -/
def put (d : Draft) (s : Switch) (v : String) : Except UsageError Draft :=
  match s with
  | .job => .ok { d with job := some (.just v) }
  | .config => .ok { d with config := some (.just v) }
  | .output => .ok { d with output := some v }
  | .seed => match Decimal.readLooseInt? v with
    | some n => .ok { d with seed := .just n }
    | none => .error (.notInteger s v)
  | .logLevel =>
    if levels.contains v then .ok { d with logLevel := .just v } else .error (.notChoice s v levels)
  | .logFile => .ok { d with logFile := some v }
  | .help | .strict | .logJson => .error (.valueIgnored s v)

/-- The draft with what is given for a switch. -/
def give (d : Draft) (s : Switch) (v : String) : Except UsageError Draft :=
  if v = "--" then .ok (d.empty s) else d.put s v

/-- The draft with a switch that takes no value. -/
def turnOn (d : Draft) (s : Switch) : Draft :=
  match s with
  | .strict => { d with strict := true }
  | .logJson => { d with logJson := true }
  | _ => d

/-- What the letters behind the letter for help ask for: the switch that still needs a value, or nothing.  Each has
to be a switch, and what stands behind one that needs a value is its value. -/
def behindHelp : List Char → Except UsageError (Option Switch)
  | [] => .ok none
  | c :: rest =>
    match Switch.named? (String.ofList ['-', c]) with
    | none => .error (.valueIgnored .help (String.ofList (c :: rest)))
    | some s =>
      if !s.takesValue then behindHelp rest
      else if rest.isEmpty then .ok (some s)
      else .ok none

/-- Takes a switch with a text attached to it.  Letters may follow the letter for help, and only there. -/
def takeAttached (d : Draft) (s : Switch) (v : String) (letter : Bool) : Except Stop Draft :=
  if s.takesValue then (d.give s v).mapError .refused
  else if !letter || v.isEmpty then .error (.refused (.valueIgnored s v))
  else match behindHelp v.toList with
    | .error e => .error (.refused e)
    | .ok none => .error .help
    | .ok (some s) => .ok { d with pending := some (s, true) }

/-- Takes a switch. -/
def takeSwitch (d : Draft) (s : Switch) : Except Stop Draft :=
  if s.takesValue then .ok { d with pending := some (s, false) }
  else if s = .help then .error .help
  else .ok (d.turnOn s)

/-- Takes a word. -/
def take (d : Draft) (w : Word) : Except Stop Draft :=
  match d.pending, w with
  | some (_, true), .value _ => .error .help
  | some (s, false), .value v => ({ d with pending := none }.give s v).mapError .refused
  | some (s, _), _ => .error (.refused (.valueMissing s))
  | none, .value t | none, .unknown t => .ok { d with extra := d.extra ++ [t] }
  | none, .divider => .ok { d with extra := d.extra ++ ["--"] }
  | none, .switch s => d.takeSwitch s
  | none, .attached s v letter => d.takeAttached s v letter

/-- What the draft asks for once all words are taken. -/
def finish (d : Draft) : Except UsageError Request :=
  match d.pending, d.job with
  | some (s, _), _ => .error (.valueMissing s)
  | none, none => .error (.required .job)
  | none, some job =>
    if d.extra.isEmpty then
      .ok (.run ⟨job, d.config, d.output, d.seed, d.strict, d.logLevel, d.logFile, d.logJson⟩)
    else .error (.unrecognized d.extra)

end Draft

/-- What a command line asks for. -/
def Request.read (args : List String) : Except UsageError Request := do
  match (← Word.readAll args).foldlM Draft.take Draft.start with
  | .ok d => d.finish
  | .error .help => return .help
  | .error (.refused e) => throw e

end PartProgram.Command
