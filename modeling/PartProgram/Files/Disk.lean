/-
Work on files.

Work on files is an action on a disk: the tree as it stands and the operations that have made it what it is.
An operation that fails is not among them, so carrying them out again on the first tree gives the last one.
-/
import PartProgram.Files.Tree

namespace PartProgram

/-- A tree and the operations done on it, the latest first. -/
structure Disk where
  tree : FileTree
  done : List FileOp

/-- Work on files that may fail. -/
abbrev FileWork := EStateM FileError Disk

namespace FileWork

/-- Does one operation. -/
def perform (op : FileOp) : FileWork Unit := do
  let d ← get
  match d.tree.apply op with
  | .ok t => set (Disk.mk t (op :: d.done))
  | .error e => throw e

section Device

/-! What makes directories goes through a device: something that does one operation or fails to. -/

variable (device : FileOp → FileWork Unit)

/-- Makes a directory, or leaves the one that is there. -/
def ensureOne (p : Path) : FileWork Unit :=
  tryCatch (device (.makeDirectory p)) fun e => do
    if e.fault = .missing ∨ !(← get).tree.isDirectory p then throw e

/-- Makes a directory and those above it that are missing.  `levels` is the greatest number of levels that
are gone up. -/
def ensureLevels : Nat → Path → FileWork Unit
  | 0, p => ensureOne device p
  | levels + 1, p =>
    tryCatch (ensureOne device p) fun e =>
      if e.fault = .missing ∧ p.parent ≠ p then do
        ensureLevels levels p.parent
        ensureOne device p
      else throw e

/-- Makes a directory with all those above it, as far as the device does. -/
def ensureDirectoryOn (p : Path) : FileWork Unit := ensureLevels device p.parts.length p

end Device

/-- Makes a directory with all those above it. -/
def ensureDirectory (p : Path) : FileWork Unit := ensureDirectoryOn perform p

end FileWork

end PartProgram
