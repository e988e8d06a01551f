/-
Documents.

A document is one node, and nothing where there is none.  A line of three dashes may open it and a line of three
points may close it; a second document is an error.

This is a part of the language.  Anchors and the aliases that refer to them, tags, literal and folded block texts,
directives and keys behind a question mark are left out, and a document with one of them is refused where it stands,
as if it were malformed.  There are values that have no counterpart here: half of a pair of surrogates, a moment,
and a day as a key are beyond this reading, while a day that is a value is read as its text.
-/
import PartProgram.Yaml.Block
import PartProgram.Yaml.Meaning
import PartProgram.Yaml.Reader

namespace PartProgram.Yaml

/-- Whether a character may stand in a document. -/
def isAllowed (c : Char) : Bool :=
  let n := c.toNat
  n == 0x09 || n == 0x0a || n == 0x0d || n == 0x85 || (0x20 ≤ n && n ≤ 0x7e) || (0xa0 ≤ n && n ≤ 0xd7ff) ||
    (0xe000 ≤ n && n ≤ 0xfffd) || 0x10000 ≤ n

/-- The characters with every line end as a single one. -/
def unifyBreaks : List Char → List Char
  | [] => []
  | '\r' :: '\n' :: rest => '\n' :: unifyBreaks rest
  | '\r' :: rest => '\n' :: unifyBreaks rest
  | c :: rest => c :: unifyBreaks rest

/-- Looks whether nothing is left after a document but lines that close it.  `fuel` is at least the number of
characters that are left. -/
def closeDocument : Nat → Cursor → Except Error Unit
  | 0, _ => .error .tooDeep
  | fuel + 1, c =>
    if c.atEnd then .ok ()
    else if c.atMarker '.' then closeDocument fuel (c.skip 3).token
    else if c.atMarker '-' then .error .severalDocuments
    else .error .unexpected

/-- The node of the document that the characters hold. -/
def read (cs : List Char) : Except Error Node := do
  let fuel := 4 * cs.length + 4
  let first := (Cursor.start (if cs.head? == some (Char.ofNat 0xfeff) then cs.drop 1 else cs)).token
  if first.atEnd then return .empty
  else
    let (v, last) ←
      if first.atMarker '-' then
        let marker := first.skip 3
        let there := marker.token
        if there.atDocumentEnd then pure (.empty, there)
        else blockNode fuel (decide (marker.line < there.line)) 0 there
      else if first.atMarker '.' || (first.column = 0 && first.atChar '%') then throw .unexpected
      else blockNode fuel true 0 first
    closeDocument fuel last
    return v

/-- The value of the document in a text. -/
def load [DigitLimit] (s : String) : Except Error Value :=
  let cs := unifyBreaks s.toList
  if cs.all isAllowed then (read cs).bind Node.meaning else .error .unprintable

/-- The reader of the command. -/
instance Reader.ofPart [DigitLimit] : Reader := ⟨load⟩

end PartProgram.Yaml
