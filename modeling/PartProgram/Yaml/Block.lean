/-
Collections by indentation.

A collection holds the lines that begin at its column; what is indented further belongs to the entry above.
The items of a sequence may stand at the column of the mapping whose value it is.  A node that begins on a line
of its own, or right after the dash of an item, may be a collection; one that follows a key on its line is a
text or a collection in brackets.
-/
import PartProgram.Yaml.Flow

namespace PartProgram.Yaml

/-- Moves from the end of a node to the next line that holds something. -/
def endLine (c : Cursor) : Except Error Cursor :=
  let there := c.token
  if there.atEnd || decide (c.line < there.line) then .ok there else .error (misfit there)

/-- The text or the collection in brackets that begins here.  Lines that go on with a text begin at `least`
or to the right of it. -/
def inlineNode (fuel least : Nat) (c : Cursor) : Except Error (Node × Cursor) :=
  if c.atChar '[' || c.atChar '\x7b' then flowNode fuel c else scalar false least c

/-- A key with its colon, and the place after the colon. -/
def blockKey (fuel least : Nat) (c : Cursor) : Except Error (Node × Cursor) := do
  let (k, after) ← inlineNode fuel least c
  let colon := after.spaces
  if colon.atMark ':' then
    checkKey c colon
    return (k, colon.next)
  else throw .badKey

/-- Whether what stands here belongs to what is indented less than `least`. -/
def isOutside (least : Nat) (c : Cursor) : Bool := c.atDocumentEnd || decide (c.column < least)

mutual

/-- The node that begins here, and the place of what follows on another line.  `least` is the least column of
what belongs to it, and `nested` says whether it may be a collection by indentation. -/
def blockNode : Nat → Bool → Nat → Cursor → Except Error (Node × Cursor)
  | 0, _, _, _ => .error .tooDeep
  | fuel + 1, nested, least, c => do
    if c.atMark '-' then
      if nested then (blockItems fuel false c.column c).map fun (vs, c) => (.list vs, c)
      else throw .unexpected
    else
      let (v, after) ← inlineNode fuel least c
      let colon := after.spaces
      if colon.atMark ':' then
        if nested then
          checkKey c colon
          let (w, there) ← blockValue fuel c.column colon.next
          let (more, last) ← blockEntries fuel c.column there
          return (.ofEntries ((v, w) :: more), last)
        else throw .unexpected
      else return (v, ← endLine after)
termination_by structural fuel => fuel

/-- The value after the colon of an entry at `column`. -/
def blockValue : Nat → Nat → Cursor → Except Error (Node × Cursor)
  | 0, _, _ => .error .tooDeep
  | fuel + 1, column, c =>
    let there := c.token
    if there.line = c.line ∧ !there.atEnd then blockNode fuel false (column + 1) there
    else if isOutside (column + 1) there then
      if there.column = column ∧ there.atMark '-' then
        (blockItems fuel true column there).map fun (vs, c) => (.list vs, c)
      else .ok (.empty, there)
    else blockNode fuel true (column + 1) there
termination_by structural fuel => fuel

/-- The entries of a mapping at `column` from here on. -/
def blockEntries : Nat → Nat → Cursor → Except Error (List (Node × Node) × Cursor)
  | 0, _, _ => .error .tooDeep
  | fuel + 1, column, c => do
    if isOutside column c then return ([], c)
    else if c.column ≠ column then throw .badIndent
    else
      let (k, after) ← blockKey fuel (column + 1) c
      let (v, there) ← blockValue fuel column after
      let (more, last) ← blockEntries fuel column there
      return ((k, v) :: more, last)
termination_by structural fuel => fuel

/-- The items of a sequence at `column` from here on; `shared` says whether the column is that of a mapping as
well. -/
def blockItems : Nat → Bool → Nat → Cursor → Except Error (List Node × Cursor)
  | 0, _, _, _ => .error .tooDeep
  | fuel + 1, shared, column, c => do
    if isOutside column c then return ([], c)
    else if c.column ≠ column then throw .badIndent
    else if !c.atMark '-' then
      if shared then return ([], c) else throw .badIndent
    else
      let there := c.next.token
      let (v, after) ←
        if there.line = c.line ∧ !there.atEnd then blockNode fuel true (column + 1) there
        else if isOutside (column + 1) there then pure (.empty, there)
        else blockNode fuel true (column + 1) there
      let (more, last) ← blockItems fuel shared column after
      return (v :: more, last)
termination_by structural fuel => fuel

end

end PartProgram.Yaml
