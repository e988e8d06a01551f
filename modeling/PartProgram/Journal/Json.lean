/-
Values in JSON.

The text is ASCII on one line: whatever lies outside the printable ASCII characters is escaped, a character of
more than sixteen bits as a pair of surrogates.  The keys of a map are texts, so a key that is a number, a truth
value or nothing is written as one; there is no text for a key of any other kind.  Positions and distance modes,
which JSON does not have, are given by their plain text.  Integers are subject to the limit of digits here as well.
-/
import PartProgram.Value.Printer

namespace PartProgram

namespace Json

/-- A unit of sixteen bits by its four hexadecimal digits. -/
def unitEscape (n : Nat) : List Char := '\\' :: 'u' :: Text.hexDigits 4 n

/-- The character with the code point `n`, escaped. -/
def pointEscape (n : Nat) : List Char :=
  if n < 0x10000 then unitEscape n
  else unitEscape (0xd800 + (n - 0x10000) / 0x400) ++ unitEscape (0xdc00 + (n - 0x10000) % 0x400)

/-- The characters with an escape of their own. -/
def shortEscapes : List (Char × Char) :=
  [(Text.doubleQuote, Text.doubleQuote), ('\\', '\\'), ('\n', 'n'), ('\r', 'r'), ('\t', 't'),
    (Char.ofNat 0x0c, 'f'), (Char.ofNat 0x08, 'b')]

/-- One character of a text. -/
def escapeChar (c : Char) : List Char :=
  match shortEscapes.lookup c with
  | some letter => ['\\', letter]
  | none => if 0x20 ≤ c.toNat ∧ c.toNat < 0x7f then [c] else pointEscape c.toNat

/-- A text in quotes. -/
def quoted (s : String) : String :=
  String.ofList (Text.doubleQuote :: s.toList.flatMap escapeChar ++ [Text.doubleQuote])

/-- A float; the values that are not finite have names. -/
def floatText (x : Float) : String :=
  if x.isNaN then "NaN"
  else if x.isInf then (if x < 0 then "-Infinity" else "Infinity")
  else Decimal.naturalText x

/-- What has no text in JSON. -/
inductive Unfit where
  /-- A key of a kind that cannot be one. -/
  | key (kind : String)
  /-- An integer that cannot be written. -/
  | number (e : TooLong)
deriving DecidableEq, Repr

variable [DigitLimit]

/-- What went wrong, in words. -/
def Unfit.message : Unfit → String
  | key kind => "keys must be str, int, float, bool or None, not " ++ kind
  | number e => e.message

/-- An integer in JSON. -/
def intText (i : Int) : Except Unfit String :=
  if Decimal.isWritten i then .ok (Decimal.intText i) else .error (.number ⟨⟩)

/-- The text of a key. -/
def keyText : Value → Except Unfit String
  | .text s => .ok s
  | .int i => intText i
  | .float x => .ok (floatText x)
  | .bool b => .ok (if b then "true" else "false")
  | .null => .ok "null"
  | v => .error (.key v.kindName)

mutual

/-- A value in JSON. -/
def text : Value → Except Unfit String
  | .null => .ok "null"
  | .bool b => .ok (if b then "true" else "false")
  | .int i => intText i
  | .float x => .ok (floatText x)
  | .text s => .ok (quoted s)
  | .list items => do return "[" ++ ", ".intercalate (← texts items) ++ "]"
  | .tuple items => do return "[" ++ ", ".intercalate (← texts items) ++ "]"
  | .map entries => do return "\x7b" ++ ", ".intercalate (← entryTexts entries) ++ "\x7d"
  | .position x y z =>
    ((Value.position x y z).checkWritten.mapError .number).map fun _ => quoted (Value.position x y z).plain
  | .mode m => .ok (quoted (Value.mode m).plain)

/-- Values in JSON. -/
def texts : List Value → Except Unfit (List String)
  | [] => .ok []
  | v :: rest => do
    let here ← text v
    return here :: (← texts rest)

/-- The entries of a map in JSON. -/
def entryTexts : List (Value × Value) → Except Unfit (List String)
  | [] => .ok []
  | (k, v) :: rest => do
    let key ← keyText k
    let here ← text v
    return (quoted key ++ ": " ++ here) :: (← entryTexts rest)

end

end Json

end PartProgram
