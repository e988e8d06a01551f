/-
The texts of a document.

A text stands between quotes or is plain.  Line ends inside a text are folded: a single one becomes a space, and
of several the first is dropped.  Between double quotes the backslash escapes; between single quotes a quote is
written twice; a plain text ends before a comment, before a colon with a blank after it, and inside brackets
also before the signs that structure them.  An escape for half of a surrogate pair is none of the characters that
a text here is made of.
-/
import PartProgram.Text.Quoted
import PartProgram.Yaml.Cursor
import PartProgram.Yaml.Scalar

namespace PartProgram.Yaml

/-- A line end as it counts in a text. -/
def breakChar (c : Char) : Char := if c.toNat = 0x85 then '\n' else c

/-- A line end and those behind it, folded. -/
def folded (first : Char) (more : List Char) : List Char :=
  if breakChar first ≠ '\n' then first :: more
  else if more.isEmpty then [' '] else more

/-! ### Between quotes -/

/-- Whether a line that separates documents begins with the characters. -/
def beginsMarker (cs : List Char) : Bool :=
  (cs.take 3 == "---".toList || cs.take 3 == "...".toList) && blankNext (cs.drop 3)

/-- The line ends that follow, with the blanks at the beginnings of lines dropped. -/
def quotedBreaks (fresh : Bool) : List Char → Except Error (List Char × List Char)
  | [] => .ok ([], [])
  | c :: rest =>
    if fresh && beginsMarker (c :: rest) then .error .unexpected
    else if c == ' ' || c == '\t' then quotedBreaks false rest
    else if isBreak c then (quotedBreaks true rest).map fun (bs, rest) => (breakChar c :: bs, rest)
    else .ok ([], c :: rest)

/-- The character a letter after a backslash stands for. -/
def escapes : List (Char × Nat) := [
  ('0', 0x00), ('a', 0x07), ('b', 0x08), ('t', 0x09), ('\t', 0x09), ('n', 0x0a), ('v', 0x0b), ('f', 0x0c),
  ('r', 0x0d), ('e', 0x1b), (' ', 0x20), (PartProgram.Text.doubleQuote, 0x22), ('\\', 0x5c), ('/', 0x2f),
  ('N', 0x85), ('_', 0xa0), ('L', 0x2028), ('P', 0x2029)]

/-- The number of hexadecimal digits that a letter after a backslash asks for. -/
def codeWidths : List (Char × Nat) := [('x', 2), ('u', 4), ('U', 8)]

/-- What an escape stands for, and what is left after it. -/
def escape : List Char → Except Error (List Char × List Char)
  | [] => .error .unclosed
  | c :: rest =>
    match escapes.lookup c, codeWidths.lookup c with
    | some n, _ => .ok ([Char.ofNat n], rest)
    | none, some width =>
      let ds := rest.take width
      let n := Decimal.digitsValue 16 ds
      if ds.length < width ∨ !ds.all isHexDigit then .error .badEscape
      else if 2 ^ 31 ≤ n then .error (.value .codeTooLarge)
      else if 0x110000 ≤ n then .error (.value .noCharacter)
      else if n.isValidChar then .ok ([Char.ofNat n], rest.drop width)
      else .error .beyond
    | none, none => if isBreak c then quotedBreaks true (c :: rest) |>.map fun (bs, rest) => (bs.drop 1, rest)
      else .error .badEscape

/-- The text up to the closing quote, and what is left after it.  `fuel` is at least the number of characters
that are left. -/
def quotedBody (quote : Char) : Nat → List Char → Except Error (List Char × List Char)
  | 0, _ => .error .unclosed
  | _ + 1, [] => .error .unclosed
  | fuel + 1, c :: rest => do
    let double := quote == PartProgram.Text.doubleQuote
    if c == quote then
      if !double && rest.head? == some quote then
        let (more, rest) ← quotedBody quote fuel (rest.drop 1)
        return (quote :: more, rest)
      else return ([], rest)
    else if double && c == '\\' then
      let (here, rest) ← escape rest
      let (more, rest) ← quotedBody quote fuel rest
      return (here ++ more, rest)
    else if c == ' ' || c == '\t' || isBreak c then
      let blanks := (c :: rest).takeWhile fun c => c == ' ' || c == '\t'
      let (here, rest) ← match (c :: rest).drop blanks.length with
        | [] => throw .unclosed
        | b :: rest =>
          if isBreak b then do
            let (more, rest) ← quotedBreaks true rest
            pure (folded b more, rest)
          else pure (blanks, b :: rest)
      let (more, rest) ← quotedBody quote fuel rest
      return (here ++ more, rest)
    else
      let (more, rest) ← quotedBody quote fuel rest
      return (c :: more, rest)

/-- The text in quotes that begins here, and the place after it. -/
def quotedText (c : Cursor) : Except Error (String × Cursor) :=
  match c.rest with
  | [] => .error .unclosed
  | quote :: rest => (quotedBody quote (rest.length + 1) rest).map fun (cs, rest) =>
    (String.ofList cs, c.skipTo rest)

/-! ### Plain texts -/

/-- The characters that structure a document inside brackets. -/
def flowMarks : List Char := [',', '[', ']', '\x7b', '\x7d']

/-- Whether a plain text ends before a character, the others following it. -/
def endsPlain (flow : Bool) (c : Char) (rest : List Char) : Bool :=
  c == ' ' || c == '\t' || isBreak c ||
    (c == ':' && (blankNext rest || (flow && (rest.take 1).any flowMarks.contains))) ||
    (flow && (c == '?' || flowMarks.contains c))

/-- Whether a plain text may begin with a character, the others following it. -/
def beginsPlain (flow : Bool) (c : Char) (rest : List Char) : Bool :=
  let marks := ['-', '?', ':', '#', '&', '*', '!', '|', '>', '%', '@', Char.ofNat 0x60,
    PartProgram.Text.singleQuote, PartProgram.Text.doubleQuote]
  (!blankNext [c] && !marks.contains c && !flowMarks.contains c) ||
    (!blankNext rest && (c == '-' || (!flow && (c == '?' || c == ':'))))

/-- The characters up to where a plain text is interrupted, and those after. -/
def plainChunk (flow : Bool) : List Char → List Char × List Char
  | [] => ([], [])
  | c :: rest =>
    if endsPlain flow c rest then ([], c :: rest)
    else
      let (chunk, rest) := plainChunk flow rest
      (c :: chunk, rest)

/-- The line ends and the spaces that follow, the line ends being collected; nothing where documents are
separated.  `fuel` is at least the number of characters that are left. -/
def plainBreaks : Nat → Cursor → Option (List Char × Cursor)
  | 0, c => some ([], c)
  | fuel + 1, c =>
    if c.atMarker '-' || c.atMarker '.' then none
    else
      let c := c.spaces
      match c.rest with
      | [] => some ([], c)
      | b :: _ =>
        if isBreak b then (plainBreaks fuel c.next).map fun (bs, c) => (breakChar b :: bs, c)
        else some ([], c)

/-- What stands between two parts of a plain text, folded, and the place after it. -/
def plainGap (c : Cursor) : List Char × Cursor :=
  let after := c.spaces
  match after.rest with
  | [] => (c.rest, after)
  | b :: _ =>
    if isBreak b then
      match plainBreaks (after.rest.length + 1) after.next with
      | some (more, c) => (folded b more, c)
      | none => ([], after)
    else (c.rest.take (after.column - c.column), after)

/-- The plain text that begins here, and the place after it.  Lines that go on with it begin at `least` or to
the right of it, unless the text is inside brackets.  `fuel` is at least the number of characters that are
left. -/
def plainChars (flow : Bool) (least : Nat) : Nat → Cursor → List Char × Cursor
  | 0, c => ([], c)
  | fuel + 1, c =>
    let (chunk, rest) := plainChunk flow c.rest
    let after := c.skipTo rest
    let (gap, there) := plainGap after
    if chunk.isEmpty || gap.isEmpty || there.atChar '#' || (!flow && decide (there.column < least)) then
      (chunk, after)
    else
      let (more, last) := plainChars flow least fuel there
      if more.isEmpty then (chunk, after) else (chunk ++ gap ++ more, last)

/-- The plain text that begins here, and the place after it. -/
def plainText (flow : Bool) (least : Nat) (c : Cursor) : String × Cursor :=
  let (cs, last) := plainChars flow least (c.rest.length + 1) c
  (String.ofList cs, last)

end PartProgram.Yaml
