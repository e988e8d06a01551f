/-
What operations do to an open program.

Seen from the settings, an operation is a line: a motion under the unit of the
configuration, the word of a switch, or the raw text.  An operation that no program can
carry out is no line at all, and the end of a program is several.  The step lemma says that
carrying an operation out adds its line exactly when the policy lets its numbers through;
the induction over the list carries three facts along, that the program stays open, that its
settings are still those of the configuration, and that its buffer has grown by the lines.
-/
import PartProgram.Proofs.Opening
import PartProgram.Operation.Generator

namespace PartProgram

variable [DigitLimit]

/-- The program `q` comes from `p` by lines added under the settings of a configuration. -/
structure Program.Progress (c : Config) (name : String) (p : Program) (raw : List String) (q : Program) : Prop
    extends Grown p raw q where
  isOpen : q.IsOpen
  follows : q.Follows c name

omit [DigitLimit] in
theorem Program.Progress.trans {c : Config} {name : String} {p q r : Program} {a b : List String}
    (h : Progress c name p a q) (h' : Progress c name q b r) : Progress c name p (a ++ b) r :=
  ⟨h.toGrown.trans h'.toGrown, h'.isOpen, h'.follows⟩

namespace Operation

/-- The motion that an operation asks for under the settings of a configuration. -/
def motion? (c : Config) : Operation → Option Motion
  | rapidMove target feed => some ⟨.rapid, target, if feed.isNull then c.feedrate else feed⟩
  | linearMove target feed => some ⟨.linear, target, if feed.isNull then c.feedrate else feed⟩
  | dropMill depth => some ⟨.rapid, ⟨.null, .null, depth⟩, c.feedrate⟩
  | raiseMill depth => some ⟨.rapid, ⟨.null, .null, if depth.isNull then c.clearance else depth⟩, c.feedrate⟩
  | _ => none

/-- The word of an operation that switches something. -/
def switchWord? : Operation → Option String
  | setMode .absolute => some "G90"
  | setMode .relative => some "G91"
  | startSpindle clockwise => some (if clockwise.isTrue then "M03" else "M04")
  | stopSpindle => some "M05"
  | startCoolant flood => some (if flood.isTrue then "M08" else "M07")
  | stopCoolant => some "M09"
  | _ => none

/-- The line that an operation puts into the listing; none for the end of the program and
for what no program can carry out. -/
def line? (c : Config) (op : Operation) : Option String :=
  match op.motion? c with
  | some m => some (c.motionText m)
  | none => match op with
    | rawLine text => some text
    | op => op.switchWord?

omit [DigitLimit] in
theorem line?_of_motion {c : Config} {op : Operation} {m : Motion} (h : op.motion? c = some m) :
    op.line? c = some (c.motionText m) := by
  unfold line?
  rw [h]

omit [DigitLimit] in
/-- A raw line is the text that it is made of. -/
theorem eq_rawLine_of_ofLine {text : String} {op : Operation} (h : ofLine text = .ok op) : op = rawLine text := by
  unfold ofLine at h
  split at h
  · cases h
  · split at h
    · cases h
    · exact (Except.ok.inj h).symm

/-- Whether the policy lets an operation through. -/
def admitted (c : Config) (op : Operation) : Except ProgramError Unit :=
  match op.motion? c with
  | some m => c.admits m
  | none => .ok ()

/-- Whether a program can carry the operation out. -/
def isSupported (op : Operation) : Bool := op.call?.isSome

/-- Whether the operation ends the program. -/
def isTerminate : Operation → Bool
  | terminate _ => true
  | _ => false

end Operation

namespace Writing

open Operation

/-- What the outcome of a judgement and of the line behind it comes to. -/
def step (p q : Program) : Except ProgramError Unit → EStateM.Result ProgramError Program Unit
  | .ok _ => .ok () q
  | .error e => .error e p

omit [DigitLimit] in
theorem step_eq_ok {p q r : Program} {verdict : Except ProgramError Unit} (h : step p q verdict = .ok () r) :
    verdict = .ok () ∧ q = r := by
  cases verdict with
  | error e => cases h
  | ok _ => exact ⟨rfl, (EStateM.Result.ok.inj h).2⟩

omit [DigitLimit] in
theorem run_discard {α : Type} (m : Writing α) (p : Program) :
    (discard m).run p = match m.run p with
      | .ok _ q => .ok () q
      | .error e q => .error e q := by
  show EStateM.map (Function.const _ ()) m p = _
  unfold EStateM.map EStateM.run
  cases m p with
  | ok a q => rfl
  | error e q => rfl

theorem run_carryOut {op : Operation} {call : Call} (h : op.call? = some call) (p : Program) :
    (carryOut op).run p = match call.run p with
      | (.ok _, q) => .ok () q
      | (.error e, q) => .error e q := by
  have hcarry : carryOut op = discard call.perform := by rw [carryOut, h]
  rw [hcarry, run_discard, Call.run]
  cases call.perform.run p with
  | ok answer q => rfl
  | error e q => rfl

variable {c : Config} {name : String} {p : Program}

/-- An operation whose call is a directive of one line adds that line where the judgement is
favourable. -/
theorem carryOut_directive (ho : p.IsOpen) (hf : p.Follows c name) {op : Operation} {call : Call} {line : String}
    {verdict : Except ProgramError Unit} (hcall : op.call? = some call)
    (hline : call.line? p = some (verdict.map fun _ => line)) :
    ∃ q, p.Progress c name [line] q ∧ (carryOut op).run p = step p q verdict := by
  refine ⟨(p.append line).inMode (call.modeAfter p), ⟨(Program.Grown.append p line).inMode _, ?_, ?_⟩, ?_⟩
  · exact ⟨(ho.append line).phase, (ho.append line).listing⟩
  · exact (hf.append line).inMode _
  · rw [run_carryOut hcall, Call.run_of_open ho hline]
    cases verdict with
    | ok _ => rfl
    | error e => rfl

/-- The motion of a directive, as the configuration has it. -/
theorem motion_of_follows (hf : p.Follows c name) (code : PreparatoryCode) (target : Position) (feed : Value) :
    p.motion code target feed =
      (c.admits ⟨code, target, if feed.isNull then c.feedrate else feed⟩).map fun _ =>
        c.motionText ⟨code, target, if feed.isNull then c.feedrate else feed⟩ := by
  rw [Program.motion_of_text hf.unit, Program.feedOf, hf.config, hf.feedrate]
  rfl

/-- **One operation.**  Other than the end of the program, an operation adds its line, or
what is wrong with its numbers is reported and nothing changes. -/
theorem carryOut_step (ho : p.IsOpen) (hf : p.Follows c name) {op : Operation} (ht : op.isTerminate = false) :
    ∃ q, p.Progress c name (op.line? c).toList q ∧ (carryOut op).run p = step p q (op.admitted c) := by
  cases op with
  | setMode m =>
      have hline : ((Operation.setMode m).line? c).toList = [m.code.toWord] := by cases m <;> rfl
      rw [hline]
      exact carryOut_directive ho hf rfl rfl
  | rapidMove target feed =>
      exact carryOut_directive ho hf rfl (congrArg some (motion_of_follows hf .rapid target feed))
  | linearMove target feed =>
      exact carryOut_directive ho hf rfl (congrArg some (motion_of_follows hf .linear target feed))
  | dropMill depth =>
      exact carryOut_directive ho hf rfl (congrArg some (motion_of_follows hf .rapid _ .null))
  | raiseMill depth =>
      have hline := motion_of_follows hf .rapid ⟨.null, .null, if depth.isNull then p.clearance else depth⟩ .null
      rw [hf.clearance] at hline
      refine carryOut_directive ho hf rfl (congrArg some ?_)
      rw [hf.clearance]
      exact hline
  | startSpindle clockwise =>
      have hline : ((Operation.startSpindle clockwise).line? c).toList = [(if clockwise.isTrue then
          MiscellaneousCode.spindleClockwise else .spindleCounterclockwise).toWord] := by
        cases h : clockwise.isTrue <;> simp [line?, motion?, switchWord?, h] <;> rfl
      rw [hline]
      exact carryOut_directive ho hf rfl rfl
  | stopSpindle => exact carryOut_directive ho hf rfl rfl
  | startCoolant flood =>
      have hline : ((Operation.startCoolant flood).line? c).toList = [(if flood.isTrue then
          MiscellaneousCode.coolantFlood else .coolantMist).toWord] := by
        cases h : flood.isTrue <;> simp [line?, motion?, switchWord?, h] <;> rfl
      rw [hline]
      exact carryOut_directive ho hf rfl rfl
  | stopCoolant => exact carryOut_directive ho hf rfl rfl
  | terminate force => cases ht
  | rawLine text =>
      refine ⟨p.append text, ⟨Program.Grown.append p text, ho.append text, hf.append text⟩, ?_⟩
      rw [run_carryOut rfl, Call.run_add_of_listing ho.listing]
      rfl
  | foreign kind =>
      exact ⟨{ p with notes := p.notes.push (passedOver kind) }, ⟨(Program.Grown.refl p).congr rfl rfl,
        ⟨ho.phase, ho.listing⟩, hf.withNotes _⟩, rfl⟩
  | value v =>
      exact ⟨{ p with notes := p.notes.push (passedOver v.kindName) }, ⟨(Program.Grown.refl p).congr rfl rfl,
        ⟨ho.phase, ho.listing⟩, hf.withNotes _⟩, rfl⟩

theorem run_carryOut_terminate (force : Value) (p : Program) :
    (carryOut (.terminate force)).run p = (terminate force).run p := by
  rw [run_carryOut rfl, Call.run, Call.perform, EStateM.run_bind]
  cases (terminate force).run p with
  | ok _ q => rfl
  | error e q => rfl

theorem carryOutAll_cons (op : Operation) (rest : List Operation) :
    carryOutAll (op :: rest) = (do carryOut op; carryOutAll rest) := rfl

theorem carryOutAll_single (op : Operation) : carryOutAll [op] = carryOut op := by
  rw [carryOutAll_cons]
  exact bind_pure (carryOut op)

theorem carryOutAll_append (a b : List Operation) :
    carryOutAll (a ++ b) = (do carryOutAll a; carryOutAll b) := by
  simp only [carryOutAll, List.forM_eq_forM, List.forM_append]

/-- **A list of operations.**  Short of the end of the program, operations add their lines
in order, until the policy stops one of them. -/
theorem carryOutAll_run (ho : p.IsOpen) (hf : p.Follows c name) {ops : List Operation}
    (ht : ∀ op ∈ ops, op.isTerminate = false) :
    ∃ q, (carryOutAll ops).run p = keeping q (ops.forM (admitted c))
      ∧ (ops.forM (admitted c) = .ok () → p.Progress c name (ops.filterMap (line? c)) q) := by
  induction ops generalizing p with
  | nil => exact ⟨p, rfl, fun _ => ⟨Program.Grown.refl p, ho, hf⟩⟩
  | cons op rest ih =>
      obtain ⟨q, hq, hstep⟩ := carryOut_step ho hf (ht op List.mem_cons_self)
      obtain ⟨r, hr, hprogress⟩ := ih hq.isOpen hq.follows fun o h => ht o (List.mem_cons_of_mem op h)
      have hverdict : (op :: rest).forM (admitted c) = (op.admitted c >>= fun _ => rest.forM (admitted c)) := rfl
      rw [carryOutAll_cons, EStateM.run_bind, hstep, hverdict]
      cases op.admitted c with
      | error e => exact ⟨p, rfl, fun h => by cases h⟩
      | ok _ =>
          refine ⟨r, hr, ?_⟩
          intro h
          have hlines : (op :: rest).filterMap (line? c) = (op.line? c).toList ++ rest.filterMap (line? c) := by
            rw [List.filterMap_cons]
            cases op.line? c with
            | none => rfl
            | some line => rfl
          rw [hlines]
          exact hq.trans (hprogress h)

/-- What no program can carry out is passed over, whatever the program. -/
theorem carryOutAll_of_unsupported {ops : List Operation} (h : ∀ op ∈ ops, op.isSupported = false) (p : Program) :
    ∃ notes, (carryOutAll ops).run p = .ok () { p with notes } := by
  induction ops generalizing p with
  | nil => exact ⟨p.notes, rfl⟩
  | cons op rest ih =>
      have hop : ∃ notes, (carryOut op).run p = .ok () { p with notes } := by
        have hcall := h op List.mem_cons_self
        cases op with
        | foreign kind => exact ⟨_, rfl⟩
        | value v => exact ⟨_, rfl⟩
        | _ => cases hcall
      obtain ⟨notes, hnotes⟩ := hop
      obtain ⟨more, hmore⟩ := ih (fun o ho => h o (List.mem_cons_of_mem op ho)) { p with notes }
      refine ⟨more, ?_⟩
      rw [carryOutAll_cons, EStateM.run_bind, hnotes]
      exact hmore

end Writing

/-! ### The end -/

/-- The lines that a program of the configuration ends with, before the marker. -/
def Config.endLines (c : Config) (forced : Bool) : List String :=
  if forced then ["M00"] else ["M05", "M09", c.motionText c.raise, "M30"]

/-- The program `q` comes from `p` by lines under the settings of a configuration, and it is
closed. -/
structure Program.Finish (c : Config) (name : String) (p : Program) (raw : List String) (q : Program) : Prop
    extends Grown p raw q where
  phase : q.phase = .closed
  listing : q.listing = none
  follows : q.Follows c name

namespace Writing

variable {c : Config} {name : String} {p : Program}

/-- Whether the policy lets the end of a program through, which raises the mill unless it is
forced. -/
def endAdmitted (c : Config) (forced : Bool) : Except ProgramError Unit := if forced then .ok () else c.admits c.raise

theorem terminate_run (ho : p.IsOpen) (hf : p.Follows c name) (force : Value) :
    ∃ q, (terminate force).run p = keeping q (endAdmitted c force.isTrue)
      ∧ (endAdmitted c force.isTrue = .ok () → p.Finish c name (c.endLines force.isTrue) q) := by
  cases hforce : force.isTrue with
  | true =>
      refine ⟨_, run_terminate_of_forced ho hforce, fun _ => ⟨(Program.Grown.append p _).ended force, rfl, ?_, ?_⟩⟩
      · exact (ho.append _).listing
      · exact (hf.append _).ended force
  | false =>
      have hraise : p.millMotion p.clearance = (c.admits c.raise).map fun _ => c.motionText c.raise := by
        rw [Program.millMotion, hf.clearance]
        exact motion_of_follows hf .rapid _ .null
      rw [run_terminate_of_unforced ho hforce, hraise, endAdmitted]
      cases c.admits c.raise with
      | error e => exact ⟨p.stopped, rfl, fun h => by cases h⟩
      | ok _ =>
          have hstopped : p.stopped.Follows c name := (hf.append _).append _
          have hgrown := (((Program.Grown.append p MiscellaneousCode.spindleStop.toWord).snoc
            MiscellaneousCode.coolantStop.toWord).snoc (c.motionText c.raise)).snoc
            MiscellaneousCode.programEnd.toWord
          have hopen := (ho.stopped.append (c.motionText c.raise)).append MiscellaneousCode.programEnd.toWord
          have hlisting := hopen.listing
          rw [← Program.listing_ended force] at hlisting
          exact ⟨_, rfl, fun _ => ⟨hgrown.ended force, Program.phase_ended force _, hlisting,
            ((hstopped.append _).append _).ended force⟩⟩

/-- The listing of a closed program that holds nothing but lines. -/
theorem eval_of_closed {p : Program} (hc : p.phase = .closed) (hl : p.listing = none) (hs : p.strays = #[]) :
    eval.run p = .ok (p.append openMarker).listed (p.append openMarker).sealed := by
  rw [run_eval_of_closed hl hc, Program.conclude, Program.strays_append, hs]
  rfl

end Writing

end PartProgram
