/-
Reading the fields of a job file.

The fields go through the conversions of a validation library, which does not belong to this program.  What is
taken for granted of it stands here, one definition for each conversion, and everything that is found out about
directives rests on it:

* `number`: a float is taken as it is, an integer where it is in the range of floats, a truth value as zero or one,
  and a text where it spells a numeral;
* `truth`: a truth value may be given as one of the usual words, or as zero or one;
* `text`: a text is taken as it is, and of all other values only a distance mode stands for one;
* `integer`: an integer is taken as it is, a truth value as zero or one, and a float where it has no fraction;
* `optional`, `list`, `map`: what is null is left open, and the items of a list and the entries of a map are read one
  by one and in their order, with every key read as a text;
* `noOthers`, `under`: a key that stands for no field is an issue, and so is a field that must be there and is not.

Where a field may be of two kinds, the first that takes the value counts; every issue is reported, with the path to
it.  What a numeral is and how it is rounded is no part of this: it is that of `Decimal.Numeral`.
-/
import PartProgram.Decimal.Numeral
import PartProgram.Job.Checked
import PartProgram.Value.Finite

namespace PartProgram.Field

/-- The characters with the underscores that group digits left out; nothing where there are none, or where one
stands at an end or next to another. -/
def ungrouped? (cs : List Char) : Option (List Char) :=
  let doubled := (cs.zip (cs.drop 1)).any fun (a, b) => a == '_' && b == '_'
  if cs.head? == some '_' || cs.getLast? == some '_' || doubled || !cs.contains '_' then none
  else some (cs.filter (· ≠ '_'))

/-- The number a text spells: a narrow numeral between white space, or one with grouped digits. -/
def numeral? (s : String) : Option Decimal.Numeral :=
  (Decimal.Numeral.read? (Text.trimWhiteSpace s.toList)).or
    ((ungrouped? s.toList).bind Decimal.Numeral.read?)

/-- Reads a number.  An integer beyond the range of floats is none. -/
def number : Value → Checked Float
  | .bool b => .accepted (if b then 1.0 else 0.0)
  | .int i => if Decimal.fitsFloat i then .accepted (Decimal.intToFloat i) else .problem .notNumber
  | .float x => .accepted x
  | .text s => match numeral? s with
    | some n => .accepted n.toFloat
    | none => .problem .unreadableNumber
  | _ => .problem .notNumber

/-- The words for truth values, in small letters. -/
def truthWords : List (String × Bool) :=
  [("0", false), ("off", false), ("f", false), ("false", false), ("n", false), ("no", false),
    ("1", true), ("on", true), ("t", true), ("true", true), ("y", true), ("yes", true)]

/-- The whole number a float stands for, within 64 bits. -/
def wholeNumber (x : Float) : Checked Int :=
  match Decimal.Binary.ofFloat? x with
  | none => .problem .integerNotFinite
  | some b => match b.toInt? with
    | none => .problem .fractionalInteger
    | some i => if -2 ^ 63 < i ∧ i < 2 ^ 63 then .accepted i else .problem .integerTooLarge

/-- The truth value that an integer stands for: zero and one have one. -/
def truthOfInt (i : Int) : Checked Bool :=
  if i = 0 then .accepted false else if i = 1 then .accepted true else .problem .unreadableTruth

/-- Reads a truth value. -/
def truth : Value → Checked Bool
  | .bool b => .accepted b
  | .text s => match truthWords.lookup s.toLower with
    | some b => .accepted b
    | none => .problem .unreadableTruth
  | .int i => if -2 ^ 63 ≤ i ∧ i < 2 ^ 63 then truthOfInt i else .problem .notTruth
  | .float x => match wholeNumber x with
    | .accepted i => truthOfInt i
    | .refused _ => .problem .notTruth
  | _ => .problem .notTruth

/-- Reads a text; a distance mode may stand for its number. -/
def text : Value → Checked String
  | .text s => .accepted s
  | .mode m => .accepted (Decimal.natText m.number)
  | _ => .problem .notText

/-- Reads an integer. -/
def integer : Value → Checked Int
  | .bool b => .accepted (if b then 1 else 0)
  | .int i => .accepted i
  | .float x => wholeNumber x
  | _ => .problem .notInteger

/-- Reads a field that may be left open. -/
def optional {α : Type} (read : Value → Checked α) (v : Value) : Checked (Option α) :=
  if v.isNull then .accepted none else (read v).map some

/-- The step to a key of a map. -/
def keyStep : Value → PathStep
  | .text s => .key s
  | .int i => if -2 ^ 63 ≤ i ∧ i < 2 ^ 63 then .index i else .key (Decimal.intText i)
  | .bool b => .index (if b then 1 else 0)
  | v => .key v.literal

/-- Reads a list. -/
def list {α : Type} (read : Value → Checked α) : Value → Checked (List α)
  | .list items => .each read 0 items
  | .tuple items => .each read 0 items
  | _ => .problem .notList

/-- Reads the entries of a map, whose keys must be texts. -/
def entries {α : Type} (read : Value → Checked α) : List (Value × Value) → Checked (List (String × α))
  | [] => .accepted []
  | (k, v) :: rest =>
    let key := ((text k).under (.key "[key]")).under (keyStep k)
    (key.map fun s a as => (s, a) :: as).beside ((read v).under (keyStep k)) |>.beside (entries read rest)

/-- The named things with one more: an equal name keeps its place and takes the new one. -/
def putNamed {α : Type} (name : String) (a : α) : List (String × α) → List (String × α)
  | [] => [(name, a)]
  | (n, b) :: rest => if n = name then (n, a) :: rest else (n, b) :: putNamed name a rest

/-- Reads a map.  Different keys may read as the same text, and then they are one. -/
def map {α : Type} (read : Value → Checked α) : Value → Checked (List (String × α))
  | .map es => (entries read es).map fun named => named.foldl (fun all (s, a) => putNamed s a all) []
  | _ => .problem .notMap

/-- Looks at the keys of a map that stand for no field. -/
def noOthers (fields : List String) : List (Value × Value) → Checked Unit
  | [] => .accepted ()
  | (k, _) :: rest =>
    let here : Checked Unit := match k with
      | .text s => if fields.contains s then .accepted () else .problem .unexpected
      | _ => .problem .keyNotText
    ((here.under (keyStep k)).map fun _ u => u).beside (noOthers fields rest)

/-- Reads the field under a key, or takes what stands for it where there is none. -/
def under {α : Type} (key : String) (standard : Checked α) (read : Value → Checked α)
    (es : List (Value × Value)) : Checked α :=
  match Value.entry? key es with
  | some v => (read v).under (.key key)
  | none => standard.under (.key key)

end PartProgram.Field
