/-
Configurations.

A configuration is what settings mean once they are read: the unit trimmed and in lower case, the distance mode
found, the positions filled in.  There are two policies.  A permissive reading lets numbers be anything, keeps
a unit it does not know and falls back to absolute coordinates; a strict one refuses all three.  Both refuse
what is no position, and both fail on a name or a unit that cannot be written.
-/
import PartProgram.Config.Setting
import PartProgram.Journal.Note
import PartProgram.Value.Finite
import PartProgram.Word.DistanceMode
import PartProgram.Word.LengthUnit
import PartProgram.Word.Position

namespace PartProgram

/-- Settings as they are meant, together with the settings as they were given. -/
structure Config where
  given : Settings
  name : Option String
  start : Position
  finish : Position
  unit : String
  mode : DistanceMode
  feedrate : Value
  clearance : Value
  lineNumbering : Bool
  strict : Bool

/-- Why settings make no configuration. -/
inductive SettingError where
  /-- The name or the unit cannot be written. -/
  | tooLong (e : TooLong)
  | unknownUnit (given : Value)
  | unknownMode (e : UnknownMode)
  | number (e : NumberError)
  | position (setting : Setting) (e : PositionError)

variable [DigitLimit]

/-- What went wrong, in words. -/
def SettingError.message : SettingError → String
  | tooLong e => e.message
  | unknownUnit v => "Unknown unit " ++ v.literal ++ "; expected one of mm, cm, dm, m, in, inch"
  | unknownMode e => e.message
  | number e => e.message
  | position s e => "Invalid " ++ s.key ++ " position: " ++ e.message

namespace Config

/-- Whether a unit or a distance mode is left open. -/
def isOpen : Value → Bool
  | .null => true
  | .text s => s.isEmpty
  | _ => false

/-- The unit a value spells, known or not. -/
def unitText (v : Value) : String := if isOpen v then "cm" else Text.lower (Text.trim v.plain)

/-- Reads a unit. -/
def readUnit (strict : Bool) (v : Value) : Except SettingError String :=
  if !v.isWritten then .error (.tooLong ⟨⟩)
  else if strict && !LengthUnit.isKnown (unitText v) then .error (.unknownUnit v)
  else .ok (unitText v)

/-- Reads a distance mode; it is absolute where it is left open. -/
def readMode (strict : Bool) (v : Value) : Except SettingError DistanceMode :=
  if isOpen v then .ok .absolute
  else match DistanceMode.ofValue? v with
    | .ok m => .ok m
    | .error e => if strict then .error (.unknownMode e) else .ok .absolute

/-- Refuses what is no finite number, under the strict policy alone. -/
def checkNumber (strict : Bool) (label : String) (v : Value) : Except SettingError Unit :=
  if strict then (v.checkFinite label).mapError .number else .ok ()

/-- Reads a number that has a standard value. -/
def readNumber (strict : Bool) (setting : Setting) (standard v : Value) : Except SettingError Value :=
  if v.isNull then .ok standard
  else (checkNumber strict setting.key v).map fun _ => v

/-- Refuses a position with an axis that is no finite number, under the strict policy alone. -/
def checkAxes (strict : Bool) (setting : Setting) (p : Position) : Except SettingError Unit :=
  p.components.forM fun (axis, v) => checkNumber strict (setting.key ++ "." ++ axis.toLower) v

/-- Reads a position; one that is left open is above the origin, at the clearance. -/
def readPosition (strict : Bool) (setting : Setting) (clearance v : Value) :
    Except SettingError Position :=
  if v.isNull then .ok ⟨.int 0, .int 0, clearance⟩
  else match Position.ofValue? v with
    | .ok p => (checkAxes strict setting p).map fun _ => p
    | .error e => .error (.position setting e)

/-- Reads a name, which is put in upper case; a value that counts as false gives none. -/
def readName (v : Value) : Except SettingError (Option String) :=
  if !v.isTrue then .ok none
  else if v.isWritten then .ok (some (Text.upper v.plain))
  else .error (.tooLong ⟨⟩)

/-- Whether lines are numbered, which they are where nothing is said. -/
def readNumbering (v : Value) : Bool := v.isNull || v.isTrue

/-- The configuration that settings make.  The clearance is read before the positions that it fills in. -/
def ofSettings (s : Settings) : Except SettingError Config := do
  let strict := (s .strict).isTrue
  let name ← readName (s .name)
  let unit ← readUnit strict (s .unit)
  let mode ← readMode strict (s .positioning)
  let feedrate ← readNumber strict .feedrate (.int 50) (s .feedrate)
  let clearance ← readNumber strict .clearance (.int 10) (s .clearance)
  let start ← readPosition strict .start clearance (s .start)
  let finish ← readPosition strict .finish clearance (s .finish)
  return {
    given := s, name, start, finish, unit, mode, feedrate, clearance
    lineNumbering := readNumbering (s .lineNumbering), strict }

/-- What is said when a unit that is not known is kept. -/
def unitNotes (v : Value) : List Note :=
  if LengthUnit.isKnown (unitText v) then []
  else [⟨.settings, .debug, "Unit " ++ v.literal ++ " not recognized, emitting values unscaled"⟩]

/-- What is said when coordinates fall back to absolute. -/
def modeNotes (v : Value) : List Note :=
  if isOpen v then []
  else match DistanceMode.ofValue? v with
    | .ok _ => []
    | .error e => [⟨.settings, .warning, e.message ++ "; falling back to absolute positioning"⟩]

/-- What is said while a configuration is made.  Under the strict policy nothing is passed over.  Under the permissive
one nothing is said where the name or the unit cannot be written, and behind these two nothing fails before the
positions, so it is the same whether or not a configuration comes about. -/
def notes (s : Settings) : List Note :=
  if (s .strict).isTrue then []
  else match readName (s .name), readUnit false (s .unit) with
    | .ok _, .ok _ => unitNotes (s .unit) ++ modeNotes (s .positioning)
    | _, _ => []

/-- The configuration with every setting left open. -/
def standard : Config where
  given := Settings.standard
  name := none
  start := ⟨.int 0, .int 0, .int 10⟩
  finish := ⟨.int 0, .int 0, .int 10⟩
  unit := "cm"
  mode := .absolute
  feedrate := .int 50
  clearance := .int 10
  lineNumbering := true
  strict := false

/-- The value of a setting in the configuration. -/
def value (c : Config) : Setting → Value
  | .name => match c.name with
    | some n => .text n
    | none => .null
  | .start => c.start.toValue
  | .finish => c.finish.toValue
  | .unit => .text c.unit
  | .positioning => .mode c.mode
  | .feedrate => c.feedrate
  | .clearance => c.clearance
  | .lineNumbering => .bool c.lineNumbering
  | .strict => .bool c.strict

end Config

end PartProgram
