/-
Collections in brackets.

Inside brackets lines and columns do not matter, but for one rule: a key ends on the line on which it begins,
and not too far from there.  Between square brackets an item may be a single pair; between braces a key may
go without a value.
-/
import PartProgram.Yaml.Node
import PartProgram.Yaml.Text

namespace PartProgram.Yaml

/-- The greatest distance from the beginning of a key to its colon. -/
def keyReach : Nat := 1024

/-- Looks whether what begins and ends at two places may be a key. -/
def checkKey (start colon : Cursor) : Except Error Unit :=
  if start.line = colon.line ∧ colon.index - start.index ≤ keyReach then .ok () else .error .badKey

/-- The text, in quotes or plain, that begins here. -/
def scalar (flow : Bool) (least : Nat) (c : Cursor) : Except Error (Node × Cursor) :=
  match c.rest with
  | [] => .error .unexpected
  | ch :: rest =>
    if ch == PartProgram.Text.singleQuote || ch == PartProgram.Text.doubleQuote then
      (quotedText c).map fun (s, c) => (.quoted s, c)
    else if beginsPlain flow ch rest then
      let (s, after) := plainText flow least c
      .ok (.plain s, after)
    else .error .unexpected

/-- The error of what does not fit where it stands.  A text between double quotes is read all the same, and a value in
it that does not exist is found first. -/
def misfit (c : Cursor) : Error :=
  if c.atChar PartProgram.Text.doubleQuote then
    match quotedText c with
    | .error (.value e) => .value e
    | _ => .unexpected
  else .unexpected

mutual

/-- The collection or text inside brackets that begins here.  Documents are not separated inside brackets. -/
def flowNode : Nat → Cursor → Except Error (Node × Cursor)
  | 0, _ => .error .tooDeep
  | fuel + 1, c =>
    if c.atMarker '-' || c.atMarker '.' then .error .unexpected
    else if c.atChar '[' then (flowItems fuel true c.next).map fun (vs, c) => (.list vs, c)
    else if c.atChar '\x7b' then (flowEntries fuel true c.next).map fun (es, c) => (.ofEntries es, c)
    else scalar true 0 c

/-- The value after a colon, or nothing before one of the given signs. -/
def flowValue (stops : List Char) : Nat → Cursor → Except Error (Node × Cursor)
  | 0, _ => .error .tooDeep
  | fuel + 1, c =>
    let c := c.token
    if stops.any c.atChar then .ok (.empty, c) else flowNode fuel c

/-- The items up to the closing bracket; `first` says whether none was read before. -/
def flowItems : Nat → Bool → Cursor → Except Error (List Node × Cursor)
  | 0, _, _ => .error .tooDeep
  | fuel + 1, first, c => do
    let c := c.token
    if c.atEnd then throw .unclosed
    else if c.atChar ']' then return ([], c.next)
    else if !first && !c.atChar ',' then throw (misfit c)
    else
      let here := if first then c else c.next.token
      if here.atEnd then throw .unclosed
      else if here.atChar ']' then return ([], here.next)
      else
        let (v, after) ← flowNode fuel here
        let colon := after.token
        if colon.atChar ':' then
          checkKey here colon
          let (w, after) ← flowValue [',', ']'] fuel colon.next
          let (more, last) ← flowItems fuel false after
          return (.ofEntries [(v, w)] :: more, last)
        else
          let (more, last) ← flowItems fuel false after
          return (v :: more, last)

/-- The entries up to the closing brace; `first` says whether none was read before. -/
def flowEntries : Nat → Bool → Cursor → Except Error (List (Node × Node) × Cursor)
  | 0, _, _ => .error .tooDeep
  | fuel + 1, first, c => do
    let c := c.token
    if c.atEnd then throw .unclosed
    else if c.atChar '\x7d' then return ([], c.next)
    else if !first && !c.atChar ',' then throw (misfit c)
    else
      let here := if first then c else c.next.token
      if here.atEnd then throw .unclosed
      else if here.atChar '\x7d' then return ([], here.next)
      else
        let (k, after) ← flowNode fuel here
        let colon := after.token
        if colon.atChar ':' then
          checkKey here colon
          let (v, after) ← flowValue [',', '\x7d'] fuel colon.next
          let (more, last) ← flowEntries fuel false after
          return ((k, v) :: more, last)
        else
          let (more, last) ← flowEntries fuel false after
          return ((k, .empty) :: more, last)

end

end PartProgram.Yaml
