/-
What a directive does to a program.

A directive of one line asks for that line whatever the program has written so far: the line
depends on the settings of the program and on what the directive was given, and so does what
can be wrong with it.  `Call.line?` is this part of a directive, free of any writing.  What
is left is one rule for all of them.  On an open program the line is added, or what is wrong
is reported and nothing changes; on a closed one the directive is refused before anything
else is looked at.

Ending a program is made of three such directives and a last line.  It is the one call that
can fail half way.
-/
import PartProgram.Proofs.Numbering
import PartProgram.Program.Call

namespace PartProgram

/-! ### Actions that change nothing

Much of a directive only asks: whether the policy lets a number through, what a text is to be.
Such an action leaves the program alone, also where it fails, and so it is a value, `keeping`,
which can be computed with outside of any program.  Here are the laws of these values.
-/

/-- The outcome of an action that answers from the program and leaves it as it is. -/
def keeping {α : Type} (p : Program) : Except ProgramError α → EStateM.Result ProgramError Program α
  | .ok a => .ok a p
  | .error e => .error e p

theorem keeping_eq_ok {α : Type} {p q : Program} {r : Except ProgramError α} {a : α}
    (h : keeping p r = .ok a q) : r = .ok a ∧ p = q := by
  cases r with
  | error e => cases h
  | ok b =>
      obtain ⟨rfl, rfl⟩ := EStateM.Result.ok.inj h
      exact ⟨rfl, rfl⟩

theorem run_forM_keeping {α : Type} {p : Program} {f : α → Writing Unit} {g : α → Except ProgramError Unit}
    (h : ∀ a, (f a).run p = keeping p (g a)) (l : List α) : (l.forM f).run p = keeping p (l.forM g) := by
  induction l with
  | nil => rfl
  | cons a rest ih =>
      show (f a >>= fun _ => rest.forM f).run p = keeping p (g a >>= fun _ => rest.forM g)
      rw [EStateM.run_bind, h a]
      cases g a with
      | ok _ => exact ih
      | error e => rfl

/-- What is computed in two stages comes about when both of them do. -/
theorem bind_eq_ok {α β ε : Type} {x : Except ε α} {f : α → Except ε β} {b : β} :
    (x >>= f) = .ok b ↔ ∃ a, x = .ok a ∧ f a = .ok b := by
  cases x with
  | error e =>
      constructor
      · intro h
        cases h
      · rintro ⟨a, h, -⟩
        cases h
  | ok a =>
      constructor
      · intro h
        exact ⟨a, rfl, h⟩
      · rintro ⟨a', h, hf⟩
        obtain rfl := Except.ok.inj h
        exact hf

/-- It fails where the first stage does, or the second behind the first. -/
theorem bind_eq_error {α β ε : Type} {x : Except ε α} {f : α → Except ε β} {e : ε} :
    (x >>= f) = .error e ↔ x = .error e ∨ ∃ a, x = .ok a ∧ f a = .error e := by
  cases x with
  | error e' =>
      constructor
      · intro h
        exact Or.inl (congrArg Except.error (Except.error.inj h))
      · rintro (h | ⟨a, h, -⟩)
        · exact congrArg Except.error (Except.error.inj h)
        · cases h
  | ok a =>
      constructor
      · intro h
        exact Or.inr ⟨a, rfl, h⟩
      · rintro (h | ⟨a', h, hf⟩)
        · cases h
        · obtain rfl := Except.ok.inj h
          exact hf

theorem eq_ok_of_toOption {α ε : Type} {x : Except ε α} {a : α} (h : x.toOption = some a) : x = .ok a := by
  cases x with
  | error e => cases h
  | ok b => rw [Option.some.inj h]

/-- Checks that are made one after another are passed when each of them is. -/
theorem forM_eq_ok {α ε : Type} {f : α → Except ε Unit} {l : List α} :
    l.forM f = .ok () ↔ ∀ a ∈ l, f a = .ok () := by
  induction l with
  | nil => exact ⟨fun _ a ha => absurd ha List.not_mem_nil, fun _ => rfl⟩
  | cons first rest ih =>
      rw [List.forall_mem_cons, ← ih, show (first :: rest).forM f = (f first >>= fun _ => rest.forM f) from rfl]
      cases f first with
      | error e =>
          constructor
          · intro h
            cases h
          · intro h
            cases h.1
      | ok _ => exact ⟨fun h => ⟨rfl, h⟩, fun h => h.2⟩

@[simp]
theorem mapError_ok {α ε ε' : Type} (f : ε → ε') (a : α) : (Except.ok a).mapError f = .ok a := rfl

@[simp]
theorem mapError_error {α ε ε' : Type} (f : ε → ε') (e : ε) :
    (Except.error e : Except ε α).mapError f = .error (f e) := rfl

theorem mapError_eq_ok {α ε ε' : Type} {f : ε → ε'} {x : Except ε α} {a : α} :
    x.mapError f = .ok a ↔ x = .ok a := by
  cases x with
  | error e => simp
  | ok b => rw [mapError_ok, Except.ok.injEq, Except.ok.injEq]

theorem mapError_eq_error {α ε ε' : Type} {f : ε → ε'} {x : Except ε α} {e : ε'} :
    x.mapError f = .error e ↔ ∃ e', x = .error e' ∧ f e' = e := by
  cases x with
  | error e' => simp
  | ok a => simp

theorem map_eq_ok {α β ε : Type} {f : α → β} {x : Except ε α} {b : β} :
    x.map f = .ok b ↔ ∃ a, x = .ok a ∧ f a = b := by
  cases x with
  | error e => simp [Except.map]
  | ok a => simp [Except.map]

variable [DigitLimit]

/-- Refuses a labelled number of a motion where the policy does. -/
def Config.judge (c : Config) (number : String × Value) : Except ProgramError Unit :=
  if c.strict then (number.2.checkFinite number.1).mapError .number else .ok ()

namespace Program

/-- A program that takes directives. -/
structure IsOpen (p : Program) : Prop where
  phase : p.phase = .opened
  listing : p.listing = none

/-- The line of a motion, or what is wrong with its numbers or with the unit. -/
def motion (p : Program) (code : PreparatoryCode) (target : Position) (feed : Value) : Except ProgramError String := do
  let feed := if feed.isNull then p.feedrate else feed
  target.components.forM p.config.judge
  p.config.judge ("F", feed)
  (motionLineIn code p.unit target feed).mapError .word

/-- The line of a motion to what may be no position. -/
def motionTo (p : Program) (code : PreparatoryCode) (position feed : Value) : Except ProgramError String :=
  match Position.ofValue? position with
  | .ok target => p.motion code target feed
  | .error e => .error (.position position e)

/-- The line of a motion of the mill alone. -/
def millMotion (p : Program) (height : Value) : Except ProgramError String :=
  p.motion .rapid ⟨.null, .null, height⟩ .null

end Program

/-! ### The actions that directives are made of

Each action gets one equation, which says what it does to a program of which its phase is known.
After these no directive is looked into any more.
-/

namespace Writing

section

omit [DigitLimit]

theorem run_add_of_listing {p : Program} (h : p.listing = none) (line : String) :
    (add line).run p = .ok () (p.append line) := by
  simp [add, h]

theorem run_add_of_evaluated {p : Program} (h : p.listing.isSome) (line : String) :
    (add line).run p = .error (.evaluated p.name) p := by
  simp [add, h]

theorem run_requireOpen_of_opened {p : Program} (h : p.phase = .opened) : requireOpen.run p = .ok () p := by
  simp [requireOpen, h]

theorem run_requireOpen_of_closed {p : Program} (h : p.phase = .closed) :
    requireOpen.run p = .error (.notOpen p.name .closed) p := by
  simp [requireOpen, h]

/-- What begins with the demand for an open program is refused by a closed one. -/
theorem run_of_closed {α : Type} {p : Program} (h : p.phase = .closed) (rest : Writing α) :
    (do requireOpen; rest : Writing α).run p = .error (.notOpen p.name .closed) p := by
  rw [EStateM.run_bind, run_requireOpen_of_closed h]

theorem run_of_opened {α : Type} {p : Program} (h : p.phase = .opened) (rest : Writing α) :
    (do requireOpen; rest : Writing α).run p = rest.run p := by
  rw [EStateM.run_bind, run_requireOpen_of_opened h]

theorem run_checkNumber (label : String) (v : Value) (p : Program) :
    (checkNumber label v).run p = keeping p (p.config.judge (label, v)) := by
  unfold checkNumber Config.judge
  rw [EStateM.run_bind, EStateM.run_get]
  by_cases hs : p.config.strict
  · cases hv : v.checkFinite label with
    | ok u => simp [hs, keeping]
    | error e => simp [hs, keeping]
  · simp [hs, keeping]

/-- The axes of a position are judged one after another. -/
theorem run_checkAxes (target : Position) (p : Program) :
    (target.components.forM fun (axis, v) => checkNumber axis v).run p
      = keeping p (target.components.forM p.config.judge) :=
  run_forM_keeping (fun (number : String × Value) => run_checkNumber number.1 number.2 p) _

end

theorem run_moveTo (code : PreparatoryCode) (target : Position) (feed : Value) (p : Program) :
    (moveTo code target feed).run p = match p.motion code target feed with
      | .ok line => (add line).run p
      | .error e => .error e p := by
  unfold moveTo Program.motion
  simp only [EStateM.run_bind, EStateM.run_get, run_checkAxes]
  generalize (if feed.isNull = true then p.feedrate else feed) = f
  cases target.components.forM p.config.judge with
  | error e => rfl
  | ok u =>
      simp only [keeping, run_checkNumber]
      cases hfeed : p.config.judge ("F", f) with
      | error e => simp [bind, Except.bind]
      | ok u =>
          cases motionLineIn code p.unit target f with
          | ok line => simp [bind, Except.bind]
          | error e => simp [bind, Except.bind]

theorem run_move_of_opened {p : Program} (h : p.phase = .opened) (code : PreparatoryCode) (position feed : Value) :
    (move code position feed).run p = match p.motionTo code position feed with
      | .ok line => (add line).run p
      | .error e => .error e p := by
  rw [move, run_of_opened h, Program.motionTo]
  cases Position.ofValue? position with
  | ok target => exact run_moveTo code target feed p
  | error e => rfl

theorem run_moveMill_of_opened {p : Program} (h : p.phase = .opened) (height : Value) :
    (moveMill height).run p = match p.millMotion height with
      | .ok line => (add line).run p
      | .error e => .error e p := by
  rw [moveMill, run_of_opened h, Program.millMotion]
  exact run_moveTo .rapid _ .null p

theorem run_raiseMill_of_opened {p : Program} (h : p.phase = .opened) (depth : Value) :
    (raiseMill depth).run p = match p.millMotion (if depth.isNull then p.clearance else depth) with
      | .ok line => (add line).run p
      | .error e => .error e p := by
  rw [raiseMill, EStateM.run_bind, EStateM.run_get]
  exact run_moveMill_of_opened h _

omit [DigitLimit] in
theorem run_switch_of_opened {p : Program} (h : p.phase = .opened) (code : MiscellaneousCode) :
    (switch code).run p = (add code.toWord).run p := by
  rw [switch, run_of_opened h]

end Writing

/-! ### Directives of one line

That a line does not depend on what is written already is what makes directives comparable
between programs: with the settings the same, the same lines are added and the same errors come
up.  It has to be shown for the motions only, whose numbers pass through the settings.
-/

namespace Program

/-- The program with the distance mode set. -/
def inMode (m : DistanceMode) (p : Program) : Program := { p with mode := m }

section

omit [DigitLimit]

@[simp]
theorem phase_append (line : String) (p : Program) : (p.append line).phase = p.phase := by
  rw [append_eq]

@[simp]
theorem listing_append (line : String) (p : Program) : (p.append line).listing = p.listing := by
  rw [append_eq]

@[simp]
theorem strays_append (line : String) (p : Program) : (p.append line).strays = p.strays := by
  rw [append_eq]

@[simp]
theorem append_inMode (line : String) (p : Program) : (p.append line).inMode p.mode = p.append line := by
  rw [append_eq]
  rfl

end

/-- What a motion is does not depend on what is written already. -/
@[simp]
theorem motion_append (line : String) (p : Program) : (p.append line).motion = p.motion := by
  rw [append_eq]
  rfl

@[simp]
theorem millMotion_append (line : String) (p : Program) : (p.append line).millMotion = p.millMotion := by
  funext height
  rw [millMotion, motion_append, millMotion]

omit [DigitLimit] in
theorem IsOpen.append {p : Program} (h : p.IsOpen) (line : String) : (p.append line).IsOpen :=
  ⟨by rw [phase_append, h.phase], by rw [listing_append, h.listing]⟩

theorem IsOpen.note {p : Program} (h : p.IsOpen) (told : List Value) (message : String) : (p.note told message).IsOpen :=
  ⟨h.phase, h.listing⟩

omit [DigitLimit] in
theorem Grown.inMode {p q : Program} {raw : List String} (h : Grown p raw q) (m : DistanceMode) :
    Grown p raw (q.inMode m) :=
  h.congr rfl rfl

theorem Grown.note {p q : Program} {raw : List String} (h : Grown p raw q) (told : List Value) (message : String) :
    Grown p raw (q.note told message) :=
  h.congr rfl rfl

end Program

namespace Call

/-- The line that a call asks for, or what is wrong with what it was given; nothing for a
call that is no directive of one line. -/
def line? (p : Program) : Call → Option (Except ProgramError String)
  | setMode given => some (((DistanceMode.ofValue? given).mapError .mode).map fun m => m.code.toWord)
  | rapidMove position feed => some (p.motionTo .rapid position feed)
  | linearMove position feed => some (p.motionTo .linear position feed)
  | dropMill depth => some (p.millMotion depth)
  | raiseMill depth => some (p.millMotion (if depth.isNull then p.clearance else depth))
  | startSpindle clockwise =>
    some (.ok (if clockwise.isTrue then MiscellaneousCode.spindleClockwise else .spindleCounterclockwise).toWord)
  | stopSpindle => some (.ok MiscellaneousCode.spindleStop.toWord)
  | startCoolant flood =>
    some (.ok (if flood.isTrue then MiscellaneousCode.coolantFlood else .coolantMist).toWord)
  | stopCoolant => some (.ok MiscellaneousCode.coolantStop.toWord)
  | terminate _ | add _ | addValue _ | eval | assign _ => none

/-- The distance mode after a call that has added its line. -/
def modeAfter (p : Program) : Call → DistanceMode
  | setMode given => (DistanceMode.ofValue? given).toOption.getD p.mode
  | _ => p.mode

/-- The outcome of a directive of one line on an open program. -/
def outcome (p : Program) (mode : DistanceMode) :
    Except ProgramError String → Except ProgramError (Option String) × Program
  | .ok line => (.ok none, (p.append line).inMode mode)
  | .error e => (.error e, p)

theorem run_eq_outcome {p : Program} (ho : p.IsOpen) {c : Call} {m : Writing Unit} {r : Except ProgramError String}
    (hc : c.perform = do m; return none)
    (hm : m.run p = match r with
      | .ok line => (Writing.add line).run p
      | .error e => .error e p) : c.run p = outcome p p.mode r := by
  rw [run, hc, EStateM.run_bind, hm]
  cases r with
  | ok line => simp [Writing.run_add_of_listing ho.listing, outcome]
  | error e => rfl

/-- A directive of one line adds the line that it asks for, or changes nothing. -/
theorem run_of_open {p : Program} (ho : p.IsOpen) {c : Call} {r : Except ProgramError String}
    (h : c.line? p = some r) : c.run p = outcome p (c.modeAfter p) r := by
  cases c with
  | setMode given =>
      obtain rfl := Option.some.inj h
      rw [run, perform, EStateM.run_bind, Writing.setMode, Writing.run_of_opened ho.phase, modeAfter]
      cases DistanceMode.ofValue? given with
      | ok m =>
          simp [Writing.emitMode, Writing.run_add_of_listing ho.listing, Except.map, outcome,
            Except.toOption, Program.inMode]
      | error e => rfl
  | rapidMove position feed =>
      obtain rfl := Option.some.inj h
      exact run_eq_outcome ho rfl (Writing.run_move_of_opened ho.phase .rapid position feed)
  | linearMove position feed =>
      obtain rfl := Option.some.inj h
      exact run_eq_outcome ho rfl (Writing.run_move_of_opened ho.phase .linear position feed)
  | dropMill depth =>
      obtain rfl := Option.some.inj h
      exact run_eq_outcome ho rfl (Writing.run_moveMill_of_opened ho.phase depth)
  | raiseMill depth =>
      obtain rfl := Option.some.inj h
      exact run_eq_outcome ho rfl (Writing.run_raiseMill_of_opened ho.phase depth)
  | startSpindle clockwise =>
      obtain rfl := Option.some.inj h
      exact run_eq_outcome ho rfl (Writing.run_switch_of_opened ho.phase _)
  | stopSpindle =>
      obtain rfl := Option.some.inj h
      exact run_eq_outcome ho rfl (Writing.run_switch_of_opened ho.phase _)
  | startCoolant flood =>
      obtain rfl := Option.some.inj h
      exact run_eq_outcome ho rfl (Writing.run_switch_of_opened ho.phase _)
  | stopCoolant =>
      obtain rfl := Option.some.inj h
      exact run_eq_outcome ho rfl (Writing.run_switch_of_opened ho.phase _)
  | terminate force => cases h
  | add line => cases h
  | addValue given => cases h
  | eval => cases h
  | assign a => cases h

theorem run_eq_refused {p : Program} {c : Call} {m : Writing Unit} {e : ProgramError}
    (hc : c.perform = do m; return none) (hm : m.run p = .error e p) : c.run p = (.error e, p) := by
  rw [run, hc, EStateM.run_bind, hm]

/-- A directive of one line that goes through has added it, and there was no listing yet. -/
theorem exists_line_of_run {p q : Program} {c : Call} {m : Writing Unit} {r : Except ProgramError String}
    {answer : Option String} (hc : c.perform = do m; return none)
    (hm : m.run p = match r with
      | .ok line => (Writing.add line).run p
      | .error e => .error e p) (hrun : c.run p = (.ok answer, q)) :
    ∃ line, r = .ok line ∧ p.listing = none ∧ q = p.append line := by
  cases r with
  | error e =>
      rw [run_eq_refused hc hm] at hrun
      cases hrun
  | ok line =>
      cases hl : p.listing with
      | some listing =>
          have hrefused := hm.trans (Writing.run_add_of_evaluated (by simp [hl]) line)
          rw [run_eq_refused hc hrefused] at hrun
          cases hrun
      | none =>
          have hadded := hm.trans (Writing.run_add_of_listing hl line)
          rw [run, hc, EStateM.run_bind, hadded] at hrun
          exact ⟨line, rfl, rfl, (Prod.ext_iff.mp hrun).2.symm⟩

/-- Whether a call is a directive, the end of the program included. -/
def isDirective : Call → Bool
  | add _ | addValue _ | eval | assign _ => false
  | _ => true

/-- A closed program refuses every directive and stays as it is. -/
theorem run_of_closed {p : Program} (hp : p.phase = .closed) {c : Call} (h : c.isDirective = true) :
    c.run p = (.error (.notOpen p.name .closed), p) := by
  have hmill (height : Value) : (Writing.moveMill height).run p = .error (.notOpen p.name .closed) p :=
    Writing.run_of_closed hp _
  cases c with
  | setMode given => exact run_eq_refused rfl (Writing.run_of_closed hp _)
  | rapidMove position feed => exact run_eq_refused rfl (Writing.run_of_closed hp _)
  | linearMove position feed => exact run_eq_refused rfl (Writing.run_of_closed hp _)
  | dropMill depth => exact run_eq_refused rfl (hmill depth)
  | raiseMill depth => exact run_eq_refused rfl (hmill _)
  | startSpindle clockwise => exact run_eq_refused rfl (Writing.run_of_closed hp _)
  | stopSpindle => exact run_eq_refused rfl (Writing.run_of_closed hp _)
  | startCoolant flood => exact run_eq_refused rfl (Writing.run_of_closed hp _)
  | stopCoolant => exact run_eq_refused rfl (Writing.run_of_closed hp _)
  | terminate force => exact run_eq_refused rfl (Writing.run_of_closed hp _)
  | add line => cases h
  | addValue given => cases h
  | eval => cases h
  | assign a => cases h

/-! ### Lines that are added as they are -/

theorem run_add_of_listing {p : Program} (hp : p.listing = none) (line : String) :
    (add line).run p = (.ok none, p.append line) := by
  rw [run, perform, EStateM.run_bind, Writing.run_add_of_listing hp]
  rfl

/-- An evaluated program refuses every line. -/
theorem run_add_of_evaluated {p : Program} (hp : p.listing.isSome) (line : String) :
    (add line).run p = (.error (.evaluated p.name), p) :=
  run_eq_refused rfl (Writing.run_add_of_evaluated hp line)

end Call

/-! ### The end of a program

An end that is not forced consists of two stops, a motion and a last line.  The stops need
nothing and always go through, and the motion may fail behind them.  The motion is the same with
the stops in the buffer as without them, so whether the end will fail can be told in advance.
-/

namespace Program

/-- The program after its end, as far as lines are not concerned. -/
def ended (force : Value) (p : Program) : Program :=
  { p with phase := .closed }.note [p.name, force] ("Terminated program " ++ p.title ++ " (force=" ++ force.plain ++ ")")

@[simp]
theorem phase_ended (force : Value) (p : Program) : (p.ended force).phase = .closed := rfl

@[simp]
theorem listing_ended (force : Value) (p : Program) : (p.ended force).listing = p.listing := rfl

theorem Grown.ended {p q : Program} {raw : List String} (h : Grown p raw q) (force : Value) :
    Grown p raw (q.ended force) :=
  h.congr rfl rfl

/-- The program with the spindle and the coolant stopped. -/
def stopped (p : Program) : Program :=
  (p.append MiscellaneousCode.spindleStop.toWord).append MiscellaneousCode.coolantStop.toWord

omit [DigitLimit] in
theorem IsOpen.stopped {p : Program} (h : p.IsOpen) : p.stopped.IsOpen := (h.append _).append _

@[simp]
theorem millMotion_stopped (p : Program) : p.stopped.millMotion = p.millMotion := by
  rw [stopped, millMotion_append, millMotion_append]

omit [DigitLimit] in
@[simp]
theorem clearance_stopped (p : Program) : p.stopped.clearance = p.clearance := by
  rw [stopped, append_eq, append_eq]

end Program

namespace Writing

/-- Raised without a height, the mill goes to the clearance. -/
theorem run_raiseMill_to_clearance {p : Program} (ho : p.IsOpen) :
    (raiseMill .null).run p = match p.millMotion p.clearance with
      | .ok line => .ok () (p.append line)
      | .error e => .error e p := by
  rw [run_raiseMill_of_opened ho.phase]
  simp only [Value.isNull, if_true, run_add_of_listing ho.listing]

theorem run_terminate_of_forced {p : Program} (ho : p.IsOpen) {force : Value} (hf : force.isTrue = true) :
    (terminate force).run p = .ok () ((p.append MiscellaneousCode.forcedStop.toWord).ended force) := by
  rw [terminate, run_of_opened ho.phase, if_pos hf, EStateM.run_bind, run_add_of_listing ho.listing]
  rfl

/-- An end that is not forced stops spindle and coolant first.  It fails when the mill
cannot be raised, and then these two lines stand. -/
theorem run_terminate_of_unforced {p : Program} (ho : p.IsOpen) {force : Value} (hf : force.isTrue = false) :
    (terminate force).run p = match p.millMotion p.clearance with
      | .ok line => .ok () (((p.stopped.append line).append MiscellaneousCode.programEnd.toWord).ended force)
      | .error e => .error e p.stopped := by
  have hstop : stopSpindle.run p = .ok () (p.append MiscellaneousCode.spindleStop.toWord) := by
    rw [stopSpindle, run_switch_of_opened ho.phase, run_add_of_listing ho.listing]
  have hcool : stopCoolant.run (p.append MiscellaneousCode.spindleStop.toWord) = .ok () p.stopped := by
    rw [stopCoolant, run_switch_of_opened (ho.append _).phase, run_add_of_listing (ho.append _).listing]
    rfl
  have hraise := run_raiseMill_to_clearance ho.stopped
  rw [Program.millMotion_stopped, Program.clearance_stopped] at hraise
  rw [terminate, run_of_opened ho.phase, if_neg (by rw [hf]; exact Bool.false_ne_true)]
  simp only [EStateM.run_bind, hstop, hcool, hraise]
  cases p.millMotion p.clearance with
  | error e => rfl
  | ok line =>
      simp only [run_add_of_listing (ho.stopped.append line).listing]
      rfl

end Writing

/-! ### The evaluation of a program -/

namespace Program

/-- The lines of the program as one text. -/
def listed (p : Program) : String := "\n".intercalate p.lines.toList

/-- The program with its listing kept. -/
def sealed (p : Program) : Program :=
  { p with listing := some p.listed }.note [p.name]
    ("Evaluated program " ++ p.title ++ ": " ++ Decimal.natText p.lines.size ++ " lines")

/-- What an evaluation comes to once the program is closed and the marker is added. -/
def conclude (p : Program) : EStateM.Result ProgramError Program String :=
  match p.strays[0]? with
  | some (index, v) => .error (.stray index v.kindName) p
  | none => .ok p.listed p.sealed

end Program

namespace Writing

theorem run_eval_of_listing {p : Program} {listing : String} (h : p.listing = some listing) :
    eval.run p = .ok listing p := by
  rw [eval, EStateM.run_bind, EStateM.run_get]
  simp only [h]
  rfl

theorem run_eval_of_closed {p : Program} (hl : p.listing = none) (hc : p.phase = .closed) :
    eval.run p = (p.append openMarker).conclude := by
  have hclosed : ¬ p.phase = .opened := by rw [hc]; decide
  rw [eval, EStateM.run_bind, EStateM.run_get]
  simp only [hl, if_neg hclosed, EStateM.run_bind, EStateM.run_get, run_add_of_listing hl, Program.conclude]
  cases (p.append openMarker).strays[0]? with
  | none => rfl
  | some stray => rfl

/-- Evaluating an open program is ending it and evaluating what there is then. -/
theorem run_eval_of_open {p : Program} (ho : p.IsOpen) :
    eval.run p = (do terminate (.bool false); eval : Writing String).run p := by
  have hend := run_terminate_of_unforced ho (show (Value.bool false).isTrue = false from rfl)
  rw [EStateM.run_bind, hend]
  conv => lhs; rw [eval, EStateM.run_bind, EStateM.run_get]
  simp only [ho.listing, if_pos ho.phase, EStateM.run_bind, hend]
  cases p.millMotion p.clearance with
  | error e => rfl
  | ok line =>
      dsimp only
      generalize hq : ((p.stopped.append line).append MiscellaneousCode.programEnd.toWord).ended (.bool false) = q
      have hclosed : q.phase = .closed := by rw [← hq, Program.phase_ended]
      have hlisting : q.listing = none := by
        rw [← hq, Program.listing_ended]
        exact ((ho.stopped.append line).append MiscellaneousCode.programEnd.toWord).listing
      simp only [run_eval_of_closed hlisting hclosed, run_add_of_listing hlisting, EStateM.run_get, Program.conclude]
      cases (q.append openMarker).strays[0]? with
      | none => rfl
      | some stray => rfl

end Writing

end PartProgram
