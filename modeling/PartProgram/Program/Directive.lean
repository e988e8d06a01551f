/-
The directives of a program.

A directive adds one line, or none when it fails; only ending a program adds several.  Positions, depths and
feed rates are in the unit of the program.  Under the strict policy every number of a motion must be finite.
-/
import PartProgram.Program.Basic

namespace PartProgram.Writing

variable [DigitLimit]

/-- Sets the distance mode for the positions that follow. -/
def emitMode (m : DistanceMode) : Writing Unit := do
  add m.code.toWord
  modify fun p => { p with mode := m }

/-- Switches the distance mode. -/
def setMode (given : Value) : Writing Unit := do
  requireOpen
  match DistanceMode.ofValue? given with
  | .ok m => emitMode m
  | .error e => throw (.mode e)

/-- Under the strict policy, fails unless the value is a finite number. -/
def checkNumber (label : String) (v : Value) : Writing Unit := do
  if (← get).config.strict then
    match v.checkFinite label with
    | .ok () => pure ()
    | .error e => throw (.number e)

/-- Adds a motion to a position that is known to be one.  The feed rate of the program stands in for one
that is not given. -/
def moveTo (code : PreparatoryCode) (target : Position) (feed : Value) : Writing Unit := do
  let p ← get
  let feed := if feed.isNull then p.feedrate else feed
  target.components.forM fun (axis, v) => checkNumber axis v
  checkNumber "F" feed
  match motionLineIn code p.unit target feed with
  | .ok line => add line
  | .error e => throw (.word e)

/-- Moves to a position. -/
def move (code : PreparatoryCode) (position feed : Value) : Writing Unit := do
  requireOpen
  match Position.ofValue? position with
  | .ok target => moveTo code target feed
  | .error e => throw (.position position e)

/-- Moves rapidly, without cutting. -/
def rapidMove (position feed : Value) : Writing Unit := move .rapid position feed

/-- Moves in a straight line at the feed rate. -/
def linearMove (position feed : Value) : Writing Unit := move .linear position feed

/-- Moves the mill to a height, the other axes staying where they are. -/
def moveMill (height : Value) : Writing Unit := do
  requireOpen
  moveTo .rapid ⟨.null, .null, height⟩ .null

/-- Lowers the mill. -/
def dropMill (depth : Value) : Writing Unit := moveMill depth

/-- Raises the mill, to the clearance of the program where no height is given. -/
def raiseMill (depth : Value) : Writing Unit := do
  let p ← get
  moveMill (if depth.isNull then p.clearance else depth)

/-- Adds the line of a miscellaneous code. -/
def switch (code : MiscellaneousCode) : Writing Unit := do
  requireOpen
  add code.toWord

/-- Starts the spindle, clockwise where the flag counts as true. -/
def startSpindle (clockwise : Value) : Writing Unit :=
  switch (if clockwise.isTrue then .spindleClockwise else .spindleCounterclockwise)

/-- Stops the spindle. -/
def stopSpindle : Writing Unit := switch .spindleStop

/-- Starts the coolant, as a flood where the flag counts as true and as mist otherwise. -/
def startCoolant (flood : Value) : Writing Unit :=
  switch (if flood.isTrue then .coolantFlood else .coolantMist)

/-- Stops the coolant. -/
def stopCoolant : Writing Unit := switch .coolantStop

/-- Ends the program.  Spindle and coolant are stopped and the mill is raised first, unless the end is
forced. -/
def terminate (force : Value) : Writing Unit := do
  requireOpen
  if force.isTrue then
    add MiscellaneousCode.forcedStop.toWord
  else
    stopSpindle
    stopCoolant
    raiseMill .null
    add MiscellaneousCode.programEnd.toWord
  modify fun p =>
    { p with phase := .closed }.note [p.name, force] ("Terminated program " ++ p.title ++ " (force=" ++ force.plain ++ ")")

/-- The listing.  The first time, the program is terminated if it is still open and the listing is closed;
after that the same listing is given out again.  There is none where something among the lines is no text. -/
def eval : Writing String := do
  let p ← get
  match p.listing with
  | some listing => return listing
  | none =>
    if p.phase = .opened then terminate (.bool false)
    add openMarker
    let p ← get
    if let some (index, v) := p.strays[0]? then throw (.stray index v.kindName)
    let listing := "\n".intercalate p.lines.toList
    set ({ p with listing := some listing }.note [p.name]
      ("Evaluated program " ++ p.title ++ ": " ++ Decimal.natText p.lines.size ++ " lines"))
    return listing

end PartProgram.Writing
