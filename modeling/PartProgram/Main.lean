/-
The command.

A run is worked out on a picture of the files that its command line names, and what it did to the picture is then
done to the disk.  Its documents are read by the reader of `Yaml.Document`.
-/
import PartProgram.Command.Run
import PartProgram.Yaml.Document
import Std.Time.DateTime.Timestamp

namespace PartProgram.Command

/-- The paths that a run may touch. -/
def Arguments.paths (a : Arguments) : List Path :=
  let output := a.output.toList.map Path.ofText
  let temporary := output.filterMap fun p => (AtomicWrite.temporary p AtomicWrite.standardSuffix).toOption
  let read := (a.job :: a.config.toList).filterMap fun file => (Path.ofValue? file.toValue).toOption
  read ++ a.logFile.toList.map Path.ofText ++ output ++ temporary

/-- The paths that lead to a path, and the path. -/
def leadingTo (p : Path) : List Path := (List.range p.parts.length).map fun n => ⟨p.parts.take (n + 1)⟩

/-- The picture with what is found under a path. -/
def look (t : FileTree) (p : Path) : IO FileTree := do
  match t.place p with
  | .error _ => return t
  | .ok place =>
    if (t.entry? place).isSome then return t
    try
      if ← (← IO.FS.realPath p.text).isDir then return t.put place .directory
      return t.put place (.file (← IO.FS.readFile p.text))
    catch _ => return t

/-- The picture of the files that a command line names. -/
def picture (args : List String) : IO FileTree :=
  match Request.read args with
  | .ok (.run a) => (a.paths.flatMap leadingTo).foldlM look ⟨[]⟩
  | _ => return ⟨[]⟩

/-- Does to the disk what was done to the picture. -/
def carryOut : FileOp → IO Unit
  | .makeDirectory p => IO.FS.createDir p.text
  | .create p => IO.FS.writeFile p.text ""
  | .open_ p => do (← IO.FS.Handle.mk p.text .append).flush
  | .append p content => do (← IO.FS.Handle.mk p.text .append).putStr content
  | .sync _ => return ()
  | .rename p q => IO.FS.rename p.text q.text
  | .remove p => IO.FS.removeFile p.text

/-- The present moment. -/
def present : IO Instant := do
  return ⟨(← Std.Time.Timestamp.now).toNanosecondsSinceUnixEpoch.val / 1000⟩

end PartProgram.Command

open PartProgram in
/-- Runs the command and gives back its code. -/
def main (args : List String) : IO UInt32 := do
  let errors ← IO.getStderr
  let session := Session.initial (← Command.picture args) (← errors.isTty)
  let (ending, session) := Command.run (← Command.present) args session
  session.disk.done.reverse.forM Command.carryOut
  IO.print session.printed
  errors.putStr session.shown
  if let .failed e := ending then errors.putStrLn e.message
  return ending.code.toUInt32
