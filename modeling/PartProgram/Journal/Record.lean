/-
Records and the lines they are written on.

A record is a note at its moment.  For people it is one line with columns for the moment, the level and the
context; for programs it is an object of JSON, in which the context stands beside the parts of the record and
takes the place of one of the same name.
-/
import PartProgram.Journal.Context
import PartProgram.Journal.Instant
import PartProgram.Journal.Json
import PartProgram.Journal.Note
import PartProgram.Journal.Template
import PartProgram.Text.Case

namespace PartProgram

/-- The name of a level, whether or not it is that of a severity.  A record is made with the name of its level, so its
level is one that can be written. -/
def levelName (level : Int) : String :=
  if level = 50 then "CRITICAL"
  else if level = 40 then "ERROR"
  else if level = 30 then "WARNING"
  else if level = 20 then "INFO"
  else if level = 10 then "DEBUG"
  else if level = 0 then "NOTSET"
  else "Level " ++ Decimal.intText level

/-- The level that a name stands for, in whatever case it is written. -/
def levelOfName? (name : String) : Option Int :=
  [("CRITICAL", 50), ("FATAL", 50), ("ERROR", 40), ("WARNING", 30), ("WARN", 30), ("INFO", 20), ("DEBUG", 10),
    ("NOTSET", (0 : Int))].lookup (Text.upper name)

/-- A failure that a record tells of. -/
structure Trouble where
  kind : String
  parts : List Value

variable [DigitLimit]

namespace Trouble

/-- What is said of a failure that cannot be written. -/
def unwritten : String := "<exception str() failed>"

/-- What a failure says: its one part, or all of them together.  A missing key is quoted. -/
def message (t : Trouble) : String :=
  if !Value.areWritten t.parts then unwritten
  else match t.parts with
    | [] => ""
    | [v] => if t.kind = "KeyError" then v.literal else v.plain
    | vs => (Value.tuple vs).literal

/-- The kind of a failure and what it says. -/
def text (t : Trouble) : String := if t.message.isEmpty then t.kind else t.kind ++ ": " ++ t.message

end Trouble

/-- An entry of the journal before it is written. -/
structure Record where
  created : Instant
  level : Int
  name : String
  template : String
  values : List Value
  trouble : Option Trouble

/-- Why a record cannot be written. -/
inductive RecordError where
  | moment (e : InstantError)
  | message (f : Template.Fault)
  /-- A value of the context cannot be written. -/
  | context (e : TooLong)
  | json (e : Json.Unfit)
deriving DecidableEq, Repr

/-- What went wrong, in words. -/
def RecordError.text : RecordError → String
  | moment e => e.message
  | message f => f.message
  | context e => e.message
  | json e => e.message

/-- How records are written. -/
inductive Form where
  | human
  | json
deriving DecidableEq, Repr

namespace Record

/-- The record of a note. -/
def ofNote (created : Instant) (n : Note) : Record :=
  ⟨created, n.severity.number, n.channel.name, n.message, [], none⟩

/-- What the record says.  Without values the template is the message as it stands. -/
def message (r : Record) : Except Template.Fault String :=
  if r.values.isEmpty then .ok r.template else Template.fill r.template r.values

/-- The sequence that begins a colour. -/
def colourStart (name : String) : String :=
  let code? := [("DEBUG", "36"), ("INFO", "32"), ("WARNING", "33"), ("ERROR", "31"), ("CRITICAL", "35")].lookup name
  match code? with
  | some code => "\x1b[" ++ code ++ "m"
  | none => ""

/-- The sequence that ends a colour. -/
def colourEnd : String := "\x1b[0m"

/-- The name of a level in a column of eight. -/
def levelColumn (colour : Bool) (level : Int) : String :=
  let name := levelName level
  let column := name ++ String.ofList (List.replicate (8 - name.length) ' ')
  if colour then colourStart name ++ column ++ colourEnd else column

/-- The columns in front of a message. -/
def columns (colour : Bool) (context : Context) (level : Int) (s : Stamp) : List String :=
  [s.shortText, "|", levelColumn colour level, "|"] ++
    (if context.isEmpty then [] else [context.text ++ " |"])

/-- The record for people: its columns and message, and on lines of its own the trouble it tells of. -/
def humanText (colour : Bool) (context : Context) (r : Record) : Except RecordError String := do
  let s ← r.created.stamp.mapError .moment
  context.checkWritten.mapError .context
  let message ← r.message.mapError .message
  let line := " ".intercalate (columns colour context r.level s ++ [message])
  return match r.trouble with
    | some t => line ++ "\n" ++ t.text
    | none => line

/-- The parts of the record with the context among them. -/
def fields (context : Context) (s : Stamp) (message : String) (r : Record) : Context :=
  let own : Context := [("t", .text s.longText), ("lvl", .text (levelName r.level)), ("name", .text r.name),
    ("msg", .text message)]
  let all := own.push context
  match r.trouble with
  | some t => all.put "exc" (.text t.text)
  | none => all

/-- The record for programs. -/
def jsonText (context : Context) (r : Record) : Except RecordError String := do
  let s ← r.created.stamp.mapError .moment
  let message ← r.message.mapError .message
  let entries := (r.fields context s message).map fun (n, v) => (Value.text n, v)
  (Json.text (.map entries)).mapError .json

/-- The text of the record. -/
def text (form : Form) (colour : Bool) (context : Context) (r : Record) : Except RecordError String :=
  match form with
  | .human => r.humanText colour context
  | .json => r.jsonText context

end Record

end PartProgram
