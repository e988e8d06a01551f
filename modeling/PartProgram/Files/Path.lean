/-
Paths.

A path is a list of names, the first of which is the root when the path is absolute.  Empty names and single
points are dropped when a path is read, so two spellings of one path are the same value; two points are kept,
since what they mean depends on the files.
-/
import PartProgram.Text.Quoted
import PartProgram.Value.Basic

namespace PartProgram

/-- A path, by its names. -/
structure Path where
  parts : List String
deriving DecidableEq, Repr, Inhabited

namespace Path

/-- The name of the root. -/
def rootName : String := "/"

/-- The names between the slashes of a text. -/
def split (s : String) : List String :=
  ((s.toList.splitOn '/').map String.ofList).filter fun p => p ≠ "" && p ≠ "."

/-- The root that a text begins with.  Two slashes at the beginning are a root of their own. -/
def root (s : String) : List String :=
  match s.toList with
  | '/' :: '/' :: '/' :: _ => [rootName]
  | '/' :: '/' :: _ => ["//"]
  | '/' :: _ => [rootName]
  | _ => []

/-- The path that a text spells. -/
def ofText (s : String) : Path := ⟨root s ++ split s⟩

/-- A value that spells no path, known by its kind. -/
structure NotPath where
  kind : String
deriving DecidableEq, Repr

/-- What went wrong, in words. -/
def NotPath.message (e : NotPath) : String := "expected str, bytes or os.PathLike object, not " ++ e.kind

/-- The path that a value spells, which has to be a text. -/
def ofValue? : Value → Except NotPath Path
  | .text s => .ok (ofText s)
  | v => .error ⟨v.kindName⟩

/-- Whether a name is that of a root. -/
def isRoot (p : String) : Bool := p == rootName || p == "//"

/-- The text of a path; a point where there are no names. -/
def text (p : Path) : String :=
  match p.parts with
  | [] => "."
  | first :: rest =>
    if isRoot first then first ++ "/".intercalate rest else "/".intercalate (first :: rest)

/-- The path without its last name; a root and the empty path are their own parents. -/
def parent (p : Path) : Path :=
  match p.parts with
  | [first] => if isRoot first then p else ⟨[]⟩
  | parts => ⟨parts.dropLast⟩

/-- The last name, which a root and the empty path do not have. -/
def name (p : Path) : String :=
  match p.parts.getLast? with
  | some n => if isRoot n then "" else n
  | none => ""

/-- Whether a path ends in a name, and not in a root or a step back. -/
def endsInName (p : Path) : Bool := !p.name.isEmpty && p.name ≠ ".."

/-- The characters from the last point on, which is neither the first character nor the last. -/
def suffixChars (name : List Char) : List Char :=
  let tail := (name.reverse.takeWhile (· ≠ '.')).reverse
  if tail.isEmpty || name.length ≤ tail.length + 1 then [] else '.' :: tail

/-- The suffix of the last name: its last point and what follows. -/
def suffix (p : Path) : String := String.ofList (suffixChars p.name.toList)

/-- Why a path cannot be given a suffix. -/
inductive SuffixError where
  | badSuffix (given : String)
  | noName (path : Path)
deriving DecidableEq, Repr

/-- What went wrong, in words. -/
def SuffixError.message : SuffixError → String
  | badSuffix given => "Invalid suffix " ++ Text.quoted given
  | noName path => "PosixPath(" ++ Text.quoted path.text ++ ") has an empty name"

/-- Whether a text may be a suffix: empty, or a point with something behind it, and on one level. -/
def isSuffix (s : String) : Bool :=
  s.isEmpty || (s.toList.head? == some '.' && s ≠ "." && !s.toList.contains '/')

/-- The path with another suffix in place of its own. -/
def withSuffix (p : Path) (s : String) : Except SuffixError Path :=
  if !isSuffix s then .error (.badSuffix s)
  else if p.name.isEmpty then .error (.noName p)
  else
    let stem := p.name.toList.take (p.name.length - (suffixChars p.name.toList).length)
    .ok ⟨p.parent.parts ++ [String.ofList stem ++ s]⟩

end Path

end PartProgram
