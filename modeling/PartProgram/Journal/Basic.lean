/-
The journal.

A journal has a threshold and outlets, and a record that reaches the threshold goes to every outlet that is
attached.  The outlets that the journal made itself are its own, and setting it up again puts new ones in their
place; others may be attached besides, and those it leaves alone.
-/
import PartProgram.Files.Tree
import PartProgram.Journal.Record

namespace PartProgram

/-- Where records go. -/
inductive OutletKind where
  /-- The console. -/
  | console (colour : Bool)
  /-- A file, found at its place as long as it has one. -/
  | file (place : Option Place) (form : Form)
  /-- An outlet that somebody else attached. -/
  | other

/-- An outlet.  No two outlets have the same number. -/
structure Outlet where
  number : Nat
  kind : OutletKind

/-- A record as it was taken. -/
structure Journal.Entry where
  record : Record
  /-- The context at that moment. -/
  context : Context

/-- The threshold, the outlets and the context of a program's records. -/
structure Journal where
  threshold : Int
  /-- The outlets that records go to. -/
  attached : List Outlet
  /-- The outlets that the journal made at its last setup. -/
  own : List Outlet
  /-- The number of the next outlet. -/
  nextNumber : Nat
  context : Context
  /-- What was taken so far, the latest first. -/
  entries : List Journal.Entry

namespace Journal

/-- The journal of a program that has not set it up: warnings and worse count, and there are no outlets. -/
def initial : Journal := ⟨Severity.warning.number, [], [], 0, [], []⟩

/-- The journal with an outlet attached by somebody else. -/
def attachOther (j : Journal) : Journal :=
  { j with attached := j.attached ++ [⟨j.nextNumber, .other⟩], nextNumber := j.nextNumber + 1 }

/-- The journal without the outlets that it made. -/
def release (j : Journal) : Journal :=
  { j with attached := j.attached.filter fun o => !(j.own.map (·.number)).contains o.number, own := [] }

/-- The journal with one more outlet of its own, which is not attached yet. -/
def make (kind : OutletKind) (j : Journal) : Journal :=
  { j with own := j.own ++ [⟨j.nextNumber, kind⟩], nextNumber := j.nextNumber + 1 }

/-- The journal with its own outlets attached. -/
def attachOwn (j : Journal) : Journal := { j with attached := j.attached ++ j.own }

/-- The journal with values pushed on its context. -/
def push (fields : Context) (j : Journal) : Journal := { j with context := j.context.push fields }

/-- The journal with names popped from its context. -/
def pop (names : List String) (j : Journal) : Journal := { j with context := j.context.pop names }

/-- The journal with nothing in its context. -/
def popAll (j : Journal) : Journal := { j with context := [] }

/-- The journal with the names in a sequence popped from its context, or all of them. -/
def popGiven (names : Value) (j : Journal) : Except PopError Journal :=
  (j.context.popGiven names).map fun c => { j with context := c }

/-- Whether the journal takes a record of the given level. -/
def takes (j : Journal) (level : Int) : Bool := decide (0 < level) && decide (j.threshold ≤ level)

/-- The journal with a record taken. -/
def take (r : Record) (j : Journal) : Journal := { j with entries := ⟨r, j.context⟩ :: j.entries }

/-- How many of its own outlets are attached. -/
def attachedCount (j : Journal) : Nat :=
  (j.own.filter fun o => (j.attached.map (·.number)).contains o.number).length

/-- The journal after an operation on the tree, its files being found where they are then. -/
def follow (t : FileTree) (op : FileOp) (j : Journal) : Journal :=
  let moved (o : Outlet) : Outlet :=
    match o.kind with
    | .file (some place) form => { o with kind := .file (t.placeAfter op place) form }
    | _ => o
  { j with attached := j.attached.map moved, own := j.own.map moved }

end Journal

end PartProgram
