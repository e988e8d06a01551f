/-
A place in a document.

The structure of a document is told by columns and by lines, so a place knows both.  Moving to the next token
skips spaces, comments and line ends; a tab is none of these.
-/
import PartProgram.Yaml.Scalar

namespace PartProgram.Yaml

/-- Why a text is no document, or a document that cannot be given a value. -/
inductive Error where
  | unprintable
  | unclosed
  | badEscape
  | badIndent
  | badKey
  | unexpected
  | severalDocuments
  | tooDeep
  /-- A value that is spelled well does not exist. -/
  | value (e : NoSuchValue)
  /-- The document holds what is none of the values here. -/
  | beyond
deriving DecidableEq, Repr

/-- What went wrong, in words. -/
def Error.message [DigitLimit] : Error → String
  | unprintable => "special characters are not allowed"
  | unclosed => "a quoted text or a bracket is not closed"
  | badEscape => "unknown escape character"
  | badIndent => "a line is not indented like its neighbours"
  | badKey => "a key is not followed by its value or cannot be a key"
  | unexpected => "a character does not fit here"
  | severalDocuments => "expected a single document"
  | tooDeep => "collections are nested too deeply"
  | value e => e.message
  | beyond => "a value of another kind"

/-- A place in a document, by what is left of it. -/
structure Cursor where
  rest : List Char
  line : Nat
  column : Nat
  index : Nat

/-- Whether a character ends a line. -/
def isBreak (c : Char) : Bool :=
  c == '\n' || c.toNat == 0x85 || c.toNat == 0x2028 || c.toNat == 0x2029

/-- Whether the characters begin with a blank or are at their end. -/
def blankNext : List Char → Bool
  | [] => true
  | c :: _ => c == ' ' || c == '\t' || isBreak c

namespace Cursor

/-- The beginning of a document. -/
def start (cs : List Char) : Cursor := ⟨cs, 0, 0, 0⟩

/-- Whether nothing is left. -/
def atEnd (c : Cursor) : Bool := c.rest.isEmpty

/-- The place after one character. -/
def next (c : Cursor) : Cursor :=
  match c.rest with
  | [] => c
  | ch :: rest =>
    if isBreak ch then ⟨rest, c.line + 1, 0, c.index + 1⟩ else ⟨rest, c.line, c.column + 1, c.index + 1⟩

/-- The place after some characters. -/
def skip : Nat → Cursor → Cursor
  | 0, c => c
  | n + 1, c => skip n c.next

/-- The place where the given characters are left, which are the end of those left here. -/
def skipTo (rest : List Char) (c : Cursor) : Cursor := c.skip (c.rest.length - rest.length)

/-- The next token, when the given characters are left; `comment` says whether they are in a comment. -/
def tokenFrom (comment : Bool) (line column index : Nat) : List Char → Cursor
  | [] => ⟨[], line, column, index⟩
  | ch :: rest =>
    if isBreak ch then tokenFrom false (line + 1) 0 (index + 1) rest
    else if comment || ch == ' ' then tokenFrom comment line (column + 1) (index + 1) rest
    else if ch == '#' then tokenFrom true line (column + 1) (index + 1) rest
    else ⟨ch :: rest, line, column, index⟩

/-- The place of the next token, or the end. -/
def token (c : Cursor) : Cursor := tokenFrom false c.line c.column c.index c.rest

/-- The place after the spaces that follow. -/
def spaces (c : Cursor) : Cursor := c.skipTo (c.rest.dropWhile (· == ' '))

/-- Whether a line that separates documents begins here. -/
def atMarker (mark : Char) (c : Cursor) : Bool :=
  decide (c.column = 0) && c.rest.take 3 == [mark, mark, mark] && blankNext (c.rest.drop 3)

/-- Whether a document ends here. -/
def atDocumentEnd (c : Cursor) : Bool := c.atEnd || c.atMarker '-' || c.atMarker '.'

/-- Whether the given character stands here by itself, a blank following it. -/
def atMark (mark : Char) (c : Cursor) : Bool :=
  match c.rest with
  | ch :: rest => ch == mark && blankNext rest
  | [] => false

/-- Whether a character that is left begins what is left. -/
def atChar (ch : Char) (c : Cursor) : Bool := c.rest.head? == some ch

end Cursor

end PartProgram.Yaml
