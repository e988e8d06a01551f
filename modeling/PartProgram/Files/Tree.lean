/-
Files and directories.

A tree holds the files and directories that are there, under the names that lead to them.  Whatever is done to
it is one of a few operations, each of which succeeds as a whole or fails and changes nothing.  A name leads on
only from a directory, and two points lead back.

There are no links.  A file has one place and a place has one file, so what is written at a place changes nothing
anywhere else, and two points lead to the directory whose name was left.
-/
import PartProgram.Files.Path

namespace PartProgram

/-- What is found under a path. -/
inductive Entry where
  | file (content : String)
  | directory
deriving DecidableEq, Repr

/-- The cause of a failure, as the operating system names it. -/
inductive FileFault where
  | missing
  | busy
  | alreadyThere
  | notDirectory
  | isDirectory
  | nameTooLong
  /-- A path with the character zero in it, which no operation takes. -/
  | zeroCharacter
deriving DecidableEq, Repr

/-- The number and the words of a fault. -/
def FileFault.text : FileFault → String
  | missing => "[Errno 2] No such file or directory"
  | busy => "[Errno 16] Device or resource busy"
  | alreadyThere => "[Errno 17] File exists"
  | notDirectory => "[Errno 20] Not a directory"
  | isDirectory => "[Errno 21] Is a directory"
  | nameTooLong => "[Errno 36] File name too long"
  | zeroCharacter => "embedded null byte"

/-- A failed operation: its cause, its path and the other path where it has two. -/
structure FileError where
  fault : FileFault
  path : Path
  other : Option Path
deriving DecidableEq, Repr

/-- What went wrong, in words.  A path that no operation takes is not named. -/
def FileError.message (e : FileError) : String :=
  let other := match e.other with
    | some p => " -> " ++ Text.quoted p.text
    | none => ""
  if e.fault = .zeroCharacter then e.fault.text else e.fault.text ++ ": " ++ Text.quoted e.path.text ++ other

/-- The names that lead to an entry from the working directory, or from the root.  Above the working directory
the levels are counted by double points. -/
abbrev Place := List String

/-- Files and directories by their places.  There are no hard links and no symbolic links among them: each place is
that of its own file, and no file has another. -/
structure FileTree where
  entries : List (Place × Entry)
deriving Inhabited

/-- One change of a tree. -/
inductive FileOp where
  | makeDirectory (p : Path)
  /-- Opens a file for writing, which makes it or empties it. -/
  | create (p : Path)
  /-- Opens a file for writing at its end, which makes it where there is none. -/
  | open_ (p : Path)
  | append (p : Path) (content : String)
  | sync (p : Path)
  | rename (p q : Path)
  | remove (p : Path)
deriving DecidableEq, Repr

namespace FileTree

/-- Whether a place is there in every tree: the working directory, the directories above it, and the root. -/
def isAlwaysThere (place : Place) : Bool :=
  match place with
  | [first] => Path.isRoot first || first == ".."
  | _ => place.all (· == "..")

/-- What is at a place. -/
def entry? (t : FileTree) (place : Place) : Option Entry :=
  if isAlwaysThere place then some .directory else t.entries.lookup place

/-- The place one level above.  There is none above the root. -/
def above (place : Place) : Place :=
  match place.getLast? with
  | none => [".."]
  | some last =>
    if last = ".." then place ++ [".."] else if Path.isRoot last then place else place.dropLast

/-- The tree with an entry at a place. -/
def put (t : FileTree) (place : Place) (e : Entry) : FileTree :=
  ⟨(place, e) :: t.entries.filter fun x => x.1 ≠ place⟩

/-- The tree with nothing at a place. -/
def drop (t : FileTree) (place : Place) : FileTree := ⟨t.entries.filter fun x => x.1 ≠ place⟩

/-- The greatest number of bytes in a name. -/
def nameLimit : Nat := 255

/-- The greatest number of bytes in a path. -/
def pathLimit : Nat := 4095

/-- Follows names from a place.  There need not be anything at the place that they lead to. -/
def follow (t : FileTree) (here : Place) : List String → Except FileFault Place
  | [] => .ok here
  | name :: rest =>
    match t.entry? here with
    | none => .error .missing
    | some (.file _) => .error .notDirectory
    | some .directory =>
      if nameLimit < name.utf8ByteSize then .error .nameTooLong
      else t.follow (if name = ".." then above here else here ++ [name]) rest

/-- The place that a path leads to. -/
def place (t : FileTree) (p : Path) : Except FileFault Place :=
  if p.parts.any fun name => name.toList.contains (Char.ofNat 0) then .error .zeroCharacter
  else if pathLimit < p.text.utf8ByteSize then .error .nameTooLong
  else t.follow [] p.parts

/-- What a path leads to. -/
def find (t : FileTree) (p : Path) : Except FileFault Entry := do
  match t.entry? (← t.place p) with
  | some e => .ok e
  | none => .error .missing

/-- Whether a path leads to anything. -/
def isThere (t : FileTree) (p : Path) : Bool := (t.find p).toBool

/-- Looks whether a path leads to anything, which cannot be told of a path that is too long. -/
def look (t : FileTree) (p : Path) : Except FileError Bool :=
  match t.find p with
  | .error .nameTooLong => .error ⟨.nameTooLong, p, none⟩
  | found => .ok found.toBool

/-- Whether a path leads to a directory. -/
def isDirectory (t : FileTree) (p : Path) : Bool :=
  match t.find p with
  | .ok .directory => true
  | _ => false

/-- The content of a file. -/
def content (t : FileTree) (p : Path) : Except FileFault String :=
  match t.find p with
  | .ok (.file s) => .ok s
  | .ok .directory => .error .isDirectory
  | .error e => .error e

/-- Makes a directory where nothing is yet. -/
def makeDirectory (t : FileTree) (p : Path) : Except FileFault FileTree := do
  let here ← t.place p
  match t.entry? here with
  | some _ => .error .alreadyThere
  | none => .ok (t.put here .directory)

/-- Makes a file of what was its content before. -/
def write (t : FileTree) (p : Path) (f : Option String → String) : Except FileFault FileTree := do
  let here ← t.place p
  match t.entry? here with
  | some .directory => .error .isDirectory
  | some (.file s) => .ok (t.put here (.file (f (some s))))
  | none => .ok (t.put here (.file (f none)))

/-- Moves a file to another place, over the file that may be there.  Both paths have to end in a name. -/
def rename (t : FileTree) (p q : Path) : Except FileFault FileTree := do
  let here ← t.place p
  let there ← t.place q
  if !p.endsInName || !q.endsInName then throw .busy
  match t.entry? here, t.entry? there with
  | some (.file _), some .directory => .error .isDirectory
  | some (.file s), _ => .ok (if here = there then t else (t.drop here).put there (.file s))
  | some .directory, _ => .error .isDirectory
  | none, _ => .error .missing

/-- Removes a file. -/
def remove (t : FileTree) (p : Path) : Except FileFault FileTree := do
  let here ← t.place p
  match t.entry? here with
  | some .directory => .error .isDirectory
  | some (.file _) => .ok (t.drop here)
  | none => .error .missing

/-- The tree after an operation. -/
def apply (t : FileTree) : FileOp → Except FileError FileTree
  | .makeDirectory p => (t.makeDirectory p).mapError fun e => ⟨e, p, none⟩
  | .create p => (t.write p fun _ => "").mapError fun e => ⟨e, p, none⟩
  | .open_ p => (t.write p (·.getD "")).mapError fun e => ⟨e, p, none⟩
  | .append p s => (t.write p fun old => old.getD "" ++ s).mapError fun e => ⟨e, p, none⟩
  | .sync p => ((t.content p).map fun _ => t).mapError fun e => ⟨e, p, none⟩
  | .rename p q => (t.rename p q).mapError fun e => ⟨e, p, some q⟩
  | .remove p => (t.remove p).mapError fun e => ⟨e, p, none⟩

/-- Where a file that is at a place is to be found after an operation on the tree: it goes along when it is moved,
and nowhere once it is removed or another file is moved over it. -/
def placeAfter (t : FileTree) (op : FileOp) (place : Place) : Option Place :=
  match op with
  | .rename p q => match t.place p, t.place q with
    | .ok here, .ok there =>
      if here = there then some place
      else if place = here then some there
      else if place = there then none
      else some place
    | _, _ => some place
  | .remove p => if (t.place p).toOption = some place then none else some place
  | _ => some place

/-- The tree after some operations, none of which may fail. -/
def applyAll (t : FileTree) (ops : List FileOp) : Except FileError FileTree := ops.foldlM apply t

end FileTree

end PartProgram
