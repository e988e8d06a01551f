/-
Documents in files.
-/
import PartProgram.Files.Tree
import PartProgram.Yaml.Reader

namespace PartProgram.Yaml

/-- Why a file gives no document. -/
inductive LoadError where
  | missing (p : Path)
  | unreadable (e : FileError)
  | malformed (p : Path) (e : Error)
  /-- The document spells a value that does not exist. -/
  | value (e : NoSuchValue)
  /-- The document holds what is none of the values here. -/
  | beyond (p : Path)
deriving DecidableEq, Repr

/-- What went wrong, in words. -/
def LoadError.message [DigitLimit] : LoadError → String
  | missing p => "YAML file not found: " ++ p.text
  | unreadable e => e.message
  | malformed p e => "Failed to parse YAML file " ++ p.text ++ ": " ++ e.message
  | value e => e.message
  | beyond p => p.text ++ " holds " ++ Error.beyond.message

/-- The error of a file, by that of its document. -/
def LoadError.ofError (p : Path) : Error → LoadError
  | .value e => value e
  | .beyond => beyond p
  | e => malformed p e

/-- The value of the document in a file. -/
def loadFile [Reader] (t : FileTree) (p : Path) : Except LoadError Value := do
  if !(← (t.look p).mapError .unreadable) then throw (.missing p)
  match t.content p with
  | .error e => throw (.unreadable ⟨e, p, none⟩)
  | .ok s => (Reader.read s).mapError (.ofError p)

end PartProgram.Yaml
