/-
Blank characters and trimming.

A character is blank when it separates words: the Unicode white space together with the four ASCII
separators U+001C to U+001F.
-/
import PartProgram.Text.Ranges

namespace PartProgram.Text

/-- The blank characters. -/
def blankRanges : Ranges := [
  (0x09, 0x0d), (0x1c, 0x20), (0x85, 0x85), (0xa0, 0xa0), (0x1680, 0x1680),
  (0x2000, 0x200a), (0x2028, 0x2029), (0x202f, 0x202f), (0x205f, 0x205f), (0x3000, 0x3000)]

/-- Whether `c` is blank. -/
def isBlank (c : Char) : Bool := blankRanges.contains c

/-- The Unicode white space alone. -/
def whiteSpaceRanges : Ranges := [
  (0x09, 0x0d), (0x20, 0x20), (0x85, 0x85), (0xa0, 0xa0), (0x1680, 0x1680),
  (0x2000, 0x200a), (0x2028, 0x2029), (0x202f, 0x202f), (0x205f, 0x205f), (0x3000, 0x3000)]

/-- Whether `c` is Unicode white space. -/
def isWhiteSpace (c : Char) : Bool := whiteSpaceRanges.contains c

/-- The characters with the blank ones at the front left out. -/
def dropBlank (cs : List Char) : List Char := cs.dropWhile isBlank

/-- The characters with the blank ones at both ends left out. -/
def trimChars (cs : List Char) : List Char := (dropBlank (dropBlank cs).reverse).reverse

/-- The characters with the white space at both ends left out. -/
def trimWhiteSpace (cs : List Char) : List Char :=
  ((cs.dropWhile isWhiteSpace).reverse.dropWhile isWhiteSpace).reverse

/-- The text with the blank characters at both ends left out. -/
def trim (s : String) : String := String.ofList (trimChars s.toList)

end PartProgram.Text
