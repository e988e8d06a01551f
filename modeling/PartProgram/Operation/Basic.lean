/-
Operations.

A job is a list of operations.  Each says in the unit of the program what is to be done, and most of what can be
wrong with it is found when it is made: a position is read then, a mode is found then, and the text of a raw
line is looked at then.  Numbers are left as they are given, since their judgement depends on the policy of the
program.
-/
import PartProgram.Value.Entries
import PartProgram.Value.Equality
import PartProgram.Value.Fields
import PartProgram.Word.DistanceMode
import PartProgram.Word.Position

namespace PartProgram

/-- What a job can ask for. -/
inductive Operation where
  | setMode (mode : DistanceMode)
  | rapidMove (target : Position) (feed : Value)
  | linearMove (target : Position) (feed : Value)
  | dropMill (depth : Value)
  | raiseMill (depth : Value)
  | startSpindle (clockwise : Value)
  | stopSpindle
  | startCoolant (flood : Value)
  | stopCoolant
  | terminate (force : Value)
  | rawLine (text : String)
  /-- An operation of another kind, which no program can carry out. -/
  | foreign (kind : String)
  /-- A value in the place of an operation. -/
  | value (v : Value)

/-- Why an operation cannot be made. -/
inductive OperationError where
  | mode (e : UnknownMode)
  | position (e : PositionError)
  | blankText
  | severalLines
  | notText (kind : String)
  | noPoints (kind : String)
  /-- The fields are not those of the operation. -/
  | fields (e : FieldError)

variable [DigitLimit]

/-- What went wrong, in words. -/
def OperationError.message : OperationError → String
  | mode e => e.message
  | position e => e.message
  | blankText => "RawLine text must be non-empty"
  | severalLines => "RawLine text must be a single line"
  | notText kind => "'" ++ kind ++ "' object has no attribute 'strip'"
  | noPoints kind => "'" ++ kind ++ "' object is not iterable"
  | fields e => e.message

namespace Operation

/-- A switch of the distance mode. -/
def ofMode (given : Value) : Except OperationError Operation :=
  (DistanceMode.ofValue? given).mapError .mode |>.map setMode

/-- A rapid move. -/
def ofRapid (position feed : Value) : Except OperationError Operation :=
  (Position.ofValue? position).mapError .position |>.map fun p => rapidMove p feed

/-- A linear move. -/
def ofLinear (position feed : Value) : Except OperationError Operation :=
  (Position.ofValue? position).mapError .position |>.map fun p => linearMove p feed

/-- A line that goes into the listing as it is: one line, and not a blank one. -/
def ofLine (text : String) : Except OperationError Operation :=
  if (Text.trim text).isEmpty then .error .blankText
  else if text.toList.contains '\n' then .error .severalLines
  else .ok (rawLine text)

/-- A raw line of a value, which must be a text. -/
def ofText : Value → Except OperationError Operation
  | .text s => ofLine s
  | v => .error (.notText v.kindName)

/-- Linear moves through points in order, at one feed rate. -/
def polyline (points feed : Value) : Except OperationError (List Operation) :=
  match points.items? with
  | some ps => ps.mapM fun p => ofLinear p feed
  | none => .error (.noPoints points.kindName)

/-- Whether two operations are of one kind and equal in what they carry.  Nothing is known of what operations of
other kinds carry, so no two of them are equal. -/
def equal : Operation → Operation → Bool
  | setMode m, setMode m' => decide (m = m')
  | rapidMove p f, rapidMove p' f' => p.toValue.equal p'.toValue && f.equal f'
  | linearMove p f, linearMove p' f' => p.toValue.equal p'.toValue && f.equal f'
  | dropMill d, dropMill d' => d.equal d'
  | raiseMill d, raiseMill d' => d.equal d'
  | startSpindle c, startSpindle c' => c.equal c'
  | stopSpindle, stopSpindle => true
  | startCoolant f, startCoolant f' => f.equal f'
  | stopCoolant, stopCoolant => true
  | terminate f, terminate f' => f.equal f'
  | rawLine s, rawLine s' => s == s'
  | value v, value w => v.equal w
  | _, _ => false

end Operation

end PartProgram
