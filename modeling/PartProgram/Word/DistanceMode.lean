/-
Reading a distance mode.

A mode is given by name or by number, in any spelling of either: the text of the value is trimmed and put in
lower case, and a numeral counts by the float it denotes.  A value that cannot be written names no mode.
-/
import PartProgram.Decimal.Numeral
import PartProgram.Text.Case
import PartProgram.Value.Printer

namespace PartProgram

/-- A value that names no distance mode. -/
structure UnknownMode where
  given : Value

section

variable [DigitLimit]

/-- What went wrong, in words. -/
def UnknownMode.message (e : UnknownMode) : String :=
  if e.given.isWritten then "positioning must be 'absolute', 'relative', 0 or 1, got " ++ e.given.literal
  else TooLong.message ⟨⟩

/-- The text of a value as a token, trimmed and in lower case. -/
def Value.token? (v : Value) : Option String :=
  if v.isWritten then some (Text.lower (Text.trim v.plain)) else none

end

namespace DistanceMode

/-- The whole number a numeral denotes after rounding to a float. -/
def wholeNumber? (token : String) : Option Int :=
  (Decimal.Numeral.readLoose? token).bind fun n =>
    (Decimal.Binary.ofFloat? n.toFloat).bind (·.toInt?)

/-- The mode a token names, the token being trimmed and in lower case. -/
def ofToken? (token : String) : Option DistanceMode :=
  if token = "absolute" then some absolute
  else if token = "relative" then some relative
  else match wholeNumber? token with
    | some 0 => some absolute
    | some 1 => some relative
    | _ => none

variable [DigitLimit]

/-- The mode a value names. -/
def ofValue? : Value → Except UnknownMode DistanceMode
  | .mode m => .ok m
  | v => match v.token?.bind ofToken? with
    | some m => .ok m
    | none => .error ⟨v⟩

/-- A text is read as the token that it spells. -/
theorem ofValue?_text {s : String} {m : DistanceMode} (h : ofToken? (Text.lower (Text.trim s)) = some m) :
    ofValue? (.text s) = .ok m := by
  have htoken : (Value.text s).token? = some (Text.lower (Text.trim s)) := rfl
  unfold ofValue?
  dsimp only
  rw [htoken, Option.bind_some, h]

end DistanceMode

end PartProgram
