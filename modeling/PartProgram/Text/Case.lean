/-
Upper and lower case of whole texts.

The counterpart of a letter comes from the tables; a few letters become several.  One rule looks at the
neighbours: a capital sigma at the end of a word becomes the final form of the small letter, the end of a
word being a place with a cased letter before it and none after it.
-/
import PartProgram.Text.CaseTable

namespace PartProgram.Text

/-- The characters of the given code points. -/
def charsOfPoints (ns : List Nat) : List Char := ns.map Char.ofNat

/-- The code point a run list moves `n` to, or `n` itself where no run holds it. -/
def shiftIn (runs : List CaseRun) (n : Nat) : Nat :=
  match runs.find? (·.contains n) with
  | some r => ((n : Int) + r.shift).toNat
  | none => n

/-- The upper case of one character. -/
def upperChar (c : Char) : List Char :=
  if c.toNat < 0x80 then [c.toUpper]
  else match upperSequences.lookup c.toNat with
    | some ns => charsOfPoints ns
    | none => [Char.ofNat (shiftIn upperRuns c.toNat)]

/-- The lower case of one character, away from the rule for sigma. -/
def lowerChar (c : Char) : List Char :=
  if c.toNat < 0x80 then [c.toLower]
  else match lowerSequences.lookup c.toNat with
    | some ns => charsOfPoints ns
    | none => [Char.ofNat (shiftIn lowerRuns c.toNat)]

/-- Whether the first character that is not passed over is cased. -/
def meetsCased : List Char → Bool
  | [] => false
  | c :: rest =>
    if caseIgnorableRanges.contains c then meetsCased rest else casedRanges.contains c

/-- The lower case of the characters after those in `before`, which is nearest first. -/
def lowerFrom (before : List Char) : List Char → List Char
  | [] => []
  | c :: rest =>
    let here :=
      if c.toNat = 0x3a3 then
        [Char.ofNat (if meetsCased before && !meetsCased rest then 0x3c2 else 0x3c3)]
      else lowerChar c
    here ++ lowerFrom (c :: before) rest

/-- The text in upper case. -/
def upper (s : String) : String := String.ofList (s.toList.flatMap upperChar)

/-- The text in lower case. -/
def lower (s : String) : String := String.ofList (lowerFrom [] s.toList)

end PartProgram.Text
