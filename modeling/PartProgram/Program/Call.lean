/-
Calls on a program as values.

Whatever can be done to a program is one of the calls below, so a history of a program is a list of them.
Besides the directives there are the plain line, the evaluation, and the assignment of the attributes that
directives fall back on.
-/
import PartProgram.Program.Directive

namespace PartProgram

/-- A new value for an attribute of a program. -/
inductive Assignment where
  | name (v : Value)
  | unit (v : Value)
  | feedrate (v : Value)
  | clearance (v : Value)
  | mode (m : DistanceMode)

/-- The program with the attribute changed. -/
def Assignment.apply : Assignment → Program → Program
  | name v, p => { p with name := v }
  | unit v, p => { p with unit := v }
  | feedrate v, p => { p with feedrate := v }
  | clearance v, p => { p with clearance := v }
  | mode m, p => { p with mode := m }

/-- What can be done to a program. -/
inductive Call where
  | setMode (given : Value)
  | rapidMove (position feed : Value)
  | linearMove (position feed : Value)
  | dropMill (depth : Value)
  | raiseMill (depth : Value)
  | startSpindle (clockwise : Value)
  | stopSpindle
  | startCoolant (flood : Value)
  | stopCoolant
  | terminate (force : Value)
  | add (line : String)
  /-- Adds what may be no line. -/
  | addValue (given : Value)
  | eval
  | assign (a : Assignment)

namespace Call

variable [DigitLimit]

/-- Makes the call; only an evaluation gives a text. -/
def perform : Call → Writing (Option String)
  | setMode given => do Writing.setMode given; return none
  | rapidMove position feed => do Writing.rapidMove position feed; return none
  | linearMove position feed => do Writing.linearMove position feed; return none
  | dropMill depth => do Writing.dropMill depth; return none
  | raiseMill depth => do Writing.raiseMill depth; return none
  | startSpindle clockwise => do Writing.startSpindle clockwise; return none
  | stopSpindle => do Writing.stopSpindle; return none
  | startCoolant flood => do Writing.startCoolant flood; return none
  | stopCoolant => do Writing.stopCoolant; return none
  | terminate force => do Writing.terminate force; return none
  | add line => do Writing.add line; return none
  | addValue given => do Writing.addValue given; return none
  | eval => do return some (← Writing.eval)
  | assign a => do modify a.apply; return none

/-- What the call answers, and the program after it. -/
def run (c : Call) (p : Program) : Except ProgramError (Option String) × Program :=
  match c.perform.run p with
  | .ok answer p => (.ok answer, p)
  | .error e p => (.error e, p)

/-- The program after a history of calls, those that failed included. -/
def runAll (calls : List Call) (p : Program) : Program := calls.foldl (fun p c => (c.run p).2) p

end Call

end PartProgram
