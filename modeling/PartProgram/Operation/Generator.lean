/-
Programs from operations.

Each operation is one call on the program; one that no program can carry out is reported and passed over.  A
generator holds a configuration and a source of names, and writes one program after another.
-/
import PartProgram.Operation.Basic
import PartProgram.Program.Call
import PartProgram.Program.Opening

namespace PartProgram

namespace Operation

/-- The call that carries the operation out; nothing where there is none. -/
def call? : Operation → Option Call
  | setMode m => some (.setMode (.mode m))
  | rapidMove p feed => some (.rapidMove p.toValue feed)
  | linearMove p feed => some (.linearMove p.toValue feed)
  | dropMill depth => some (.dropMill depth)
  | raiseMill depth => some (.raiseMill depth)
  | startSpindle clockwise => some (.startSpindle clockwise)
  | stopSpindle => some .stopSpindle
  | startCoolant flood => some (.startCoolant flood)
  | stopCoolant => some .stopCoolant
  | terminate force => some (.terminate force)
  | rawLine text => some (.add text)
  | foreign _ => none
  | value _ => none

/-- The kind of an operation that no program can carry out. -/
def unsupportedKind? : Operation → Option String
  | foreign kind => some kind
  | value v => some v.kindName
  | _ => none

/-- What is said of an operation that is passed over. -/
def passedOver (kind : String) : Note := ⟨.generator, .warning, "Unsupported operation: " ++ kind⟩

end Operation

namespace Writing

variable [DigitLimit]

/-- Carries an operation out. -/
def carryOut (op : Operation) : Writing Unit :=
  match op.call?, op.unsupportedKind? with
  | some c, _ => discard c.perform
  | none, some kind => modify fun p => { p with notes := p.notes.push (Operation.passedOver kind) }
  | none, none => pure ()

/-- Carries operations out in order. -/
def carryOutAll (ops : List Operation) : Writing Unit := ops.forM carryOut

end Writing

/-- Writes programs of one configuration.  Without a source of names of its own, every program takes the first
name of the standard one. -/
structure Generator where
  config : Config
  names : Option NameSource

namespace Generator

variable [DigitLimit]

/-- What came of carrying operations out on a new program. -/
inductive Outcome where
  | written (p : Program)
  /-- An operation failed, and the program is as far as it got. -/
  | stopped (e : ProgramError) (p : Program)
  /-- Not even the opening went through. -/
  | unopened (e : ProgramError)

/-- A new program, and the generator after it. -/
def openNext (g : Generator) : Except ProgramError Program × Generator :=
  match g.names with
  | some names =>
    let (made, names) := Program.openNext g.config names
    (made, { g with names := some names })
  | none => ((Program.openNext g.config .standard).1, g)

/-- A new program with operations carried out but not finished, and the generator after it. -/
def build (g : Generator) (ops : List Operation) : Outcome × Generator :=
  match g.openNext with
  | (.error e, g) => (.unopened e, g)
  | (.ok p, g) => match (Writing.carryOutAll ops).run p with
    | .ok () p => (.written p, g)
    | .error e p => (.stopped e p, g)

/-- What is said once a listing is finished. -/
def finished (p : Program) (count : Nat) : Note :=
  ⟨.generator, .info, "Generated program " ++ p.title ++ " from " ++ Decimal.natText count ++ " operations"⟩

/-- The listing of operations, what was said meanwhile, and the generator after it. -/
def generate (g : Generator) (ops : List Operation) :
    Except ProgramError String × List Note × Generator :=
  match g.build ops with
  | (.written p, g) => match Writing.eval.run p with
    | .ok listing p => (.ok listing, p.notes.toList ++ [finished p ops.length], g)
    | .error e p => (.error e, p.notes.toList, g)
  | (.stopped e p, g) => (.error e, p.notes.toList, g)
  | (.unopened e, g) => (.error e, [], g)

end Generator

end PartProgram
