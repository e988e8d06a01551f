/-
Writing a file as a whole.

New content is written to a temporary file next to its target and moved over the target when it is complete, so
whoever reads the target sees the old content or the new one and nothing between.  When something fails the
temporary file is removed again.  All of this is done by a device, which does one operation after another and may
fail to do any of them.
-/
import PartProgram.Files.Disk

namespace PartProgram

/-- Why a file was not written. -/
inductive WriteError where
  /-- The directories above it could not be made, or the temporary file could not be removed. -/
  | files (e : FileError)
  /-- The temporary file has no name. -/
  | suffix (e : Path.SuffixError)
  | failed (target : Path) (e : FileError)
deriving DecidableEq, Repr

/-- What went wrong, in words. -/
def WriteError.message : WriteError → String
  | files e => e.message
  | suffix e => e.message
  | failed target e => "Failed to write " ++ target.text ++ " atomically: " ++ e.message

namespace AtomicWrite

/-- The suffix of temporary files. -/
def standardSuffix : String := ".tmp"

/-- The temporary file of a target. -/
def temporary (target : Path) (suffix : String) : Except Path.SuffixError Path :=
  target.withSuffix (target.suffix ++ suffix)

section Device

variable (device : FileOp → FileWork Unit)

/-- Fills the temporary file piece by piece and moves it over the target. -/
def replace (temporary target : Path) (pieces : List String) : FileWork Unit := do
  device (.create temporary)
  pieces.forM fun s => device (.append temporary s)
  device (.sync temporary)
  device (.rename temporary target)

/-- Removes the temporary file where there is one. -/
def cleanUp (temporary : Path) : FileWork Unit := do
  match (← get).tree.look temporary with
  | .ok true => device (.remove temporary)
  | .ok false => pure ()
  | .error e => throw e

/-- Writes a file as a whole, as far as the device does. -/
def writeOn (target : Path) (pieces : List String) (suffix : String) : EStateM WriteError Disk Unit := do
  (FileWork.ensureDirectoryOn device target.parent).adaptExcept .files
  match temporary target suffix with
  | .error e => throw (.suffix e)
  | .ok temporary =>
    tryCatch ((replace device temporary target pieces).adaptExcept (.failed target)) fun e => do
      (cleanUp device temporary).adaptExcept .files
      throw e

/-- The text with a line end after its last line. -/
def closed (s : String) : String := if s.endsWith "\n" then s else s ++ "\n"

/-- Writes a text file as a whole, with a line end after its last line. -/
def writeTextOn (target : Path) (s : String) : EStateM WriteError Disk Unit :=
  writeOn device target [closed s] standardSuffix

end Device

/-- Writes a file as a whole. -/
def write (target : Path) (pieces : List String) (suffix : String) : EStateM WriteError Disk Unit :=
  writeOn FileWork.perform target pieces suffix

/-- Writes a text file as a whole, with a line end after its last line. -/
def writeText (target : Path) (s : String) : EStateM WriteError Disk Unit := writeTextOn FileWork.perform target s

end AtomicWrite

end PartProgram
