/-
The calls that a job names.

A directive of a job file can be followed in two ways.  The job makes it an operation, which
a generator then carries out; and the word for it is the name of a call, which can be made on
the program at once with the fields of the directive as its parts.  What is proved is that
these are the same.  Where a directive makes an operation at all, what was read already when
the operation was made, a position or a distance mode, is read by the call to the same end;
everything else goes through both ways untouched.  So the two actions are equal, and with them
whatever they lead to: the program, the fault, and the entry at which it shows.
-/
import PartProgram.Job.Basic
import PartProgram.Program.CallKind
import PartProgram.Proofs.Operations

namespace PartProgram

/-- The name of the call that a directive of a kind asks for; a raw line is added. -/
def DirectiveKind.callName : DirectiveKind → String
  | raw => "add"
  | k => k.text

namespace Directive

/-- The fields of a directive that are parts of its call.  A depth that is not given is left
to the call. -/
def parts (d : Directive) : Fields :=
  match d.kind with
  | .setPositioning => [("positioning", orNull ModeToken.toValue d.positioning)]
  | .feedRapid | .feedLinear =>
    [("position", orNull PositionSpec.toValue d.position), ("feedrate", Value.ofFloat? d.feedrate)]
  | .dropMill | .raiseMill => d.depth.toList.map fun x => ("depth", .float x)
  | .startSpindle => [("clockwise", .bool d.clockwise)]
  | .startCoolant => [("flood", .bool d.flood)]
  | .terminate => [("force", .bool d.force)]
  | .raw => [("line", orNull .text d.text)]
  | .stopSpindle | .stopCoolant => []

/-- The call that a directive names. -/
def call? (d : Directive) : Option Call :=
  (CallKind.ofName? d.kind.callName).bind fun k => (k.ofFields d.parts).toOption

end Directive

/-! ### One directive

The fields of a directive hold values that were read, and a call takes anything.  It reads a
position or a mode from what it is given, just as the operation was made, and both readings go
through the same function.  So the call finds what the operation has already.
-/

section

variable [DigitLimit]

namespace Call

/-- A call does not see how a distance mode was spelled. -/
theorem perform_setMode {v : Value} {m : DistanceMode} (h : DistanceMode.ofValue? v = .ok m) :
    (setMode v).perform = (setMode (.mode m)).perform := by
  have hm : DistanceMode.ofValue? (.mode m) = .ok m := rfl
  simp only [perform, Writing.setMode, h, hm]

/-- Nor how a position was. -/
theorem move_toValue {v : Value} {p : Position} (h : Position.ofValue? v = .ok p) (code : PreparatoryCode)
    (feed : Value) : Writing.move code v feed = Writing.move code p.toValue feed := by
  simp only [Writing.move, h, Position.ofValue?_toValue]

end Call

namespace Directive

/-- **One directive.**  Where it makes an operation, it names a call, and the call is what the
operation asks for. -/
theorem perform_of_operation {d : Directive} {op : Operation} (h : d.operation = .ok op) :
    ∃ asked made, d.call? = some asked ∧ op.call? = some made ∧ asked.perform = made.perform := by
  obtain ⟨kind, position, feedrate, depth, clockwise, flood, force, positioning, text⟩ := d
  cases kind with
  | setPositioning =>
      obtain ⟨m, hm, rfl⟩ := map_eq_ok.mp h
      exact ⟨_, _, rfl, rfl, Call.perform_setMode (mapError_eq_ok.mp hm)⟩
  | feedRapid =>
      obtain ⟨p, hp, rfl⟩ := map_eq_ok.mp h
      refine ⟨_, _, rfl, rfl, ?_⟩
      simp only [Call.perform, Writing.rapidMove]
      rw [← Call.move_toValue (mapError_eq_ok.mp hp)]
      rfl
  | feedLinear =>
      obtain ⟨p, hp, rfl⟩ := map_eq_ok.mp h
      refine ⟨_, _, rfl, rfl, ?_⟩
      simp only [Call.perform, Writing.linearMove]
      rw [← Call.move_toValue (mapError_eq_ok.mp hp)]
      rfl
  | dropMill =>
      obtain rfl := Except.ok.inj h
      cases depth with
      | none => exact ⟨_, _, rfl, rfl, rfl⟩
      | some x => exact ⟨_, _, rfl, rfl, rfl⟩
  | raiseMill =>
      obtain rfl := Except.ok.inj h
      cases depth with
      | none => exact ⟨_, _, rfl, rfl, rfl⟩
      | some x => exact ⟨_, _, rfl, rfl, rfl⟩
  | raw =>
      cases text with
      | none => cases h
      | some s =>
          have hline : Operation.ofLine s = .ok op := h
          obtain rfl := Operation.eq_rawLine_of_ofLine hline
          exact ⟨_, _, rfl, rfl, rfl⟩
  | _ =>
      obtain rfl := Except.ok.inj h
      exact ⟨_, _, rfl, rfl, rfl⟩

end Directive

/-! ### A list of directives -/

/-- Makes calls in order. -/
def Writing.makeAll (calls : List Call) : Writing Unit := calls.forM fun c => discard c.perform

/-- A new program with calls made on it but not finished, and the generator after it. -/
def Generator.buildByCalls (g : Generator) (calls : List Call) : Generator.Outcome × Generator :=
  match g.openNext with
  | (.error e, g) => (.unopened e, g)
  | (.ok p, g) => match (Writing.makeAll calls).run p with
    | .ok () p => (.written p, g)
    | .error e p => (.stopped e p, g)

namespace Directive

theorem makeAll_of_operations {ds : List Directive} {ops : List Operation}
    (h : ds.mapM Directive.operation = .ok ops) :
    ∃ calls, ds.mapM Directive.call? = some calls
      ∧ ∀ n, Writing.carryOutAll (ops.take n) = Writing.makeAll (calls.take n) := by
  induction ds generalizing ops with
  | nil =>
      obtain rfl := Except.ok.inj h
      exact ⟨[], rfl, fun n => by simp [Writing.carryOutAll, Writing.makeAll]⟩
  | cons d rest ih =>
      rw [List.mapM_cons] at h
      obtain ⟨op, hop, h⟩ := bind_eq_ok.mp h
      obtain ⟨ops', hops, h⟩ := bind_eq_ok.mp h
      obtain rfl := Except.ok.inj h
      obtain ⟨asked, made, hasked, hmade, hperform⟩ := perform_of_operation hop
      obtain ⟨calls, hcalls, hall⟩ := ih hops
      refine ⟨asked :: calls, by rw [List.mapM_cons, hasked, hcalls]; rfl, ?_⟩
      intro n
      cases n with
      | zero => rfl
      | succ n =>
          have hfirst : Writing.carryOut op = discard asked.perform := by
            rw [Writing.carryOut, hmade, hperform]
          show (Writing.carryOut op >>= fun _ => Writing.carryOutAll (ops'.take n))
            = (discard asked.perform >>= fun _ => Writing.makeAll (calls.take n))
          rw [hfirst, hall n]

end Directive

namespace Generator

/-- **A job and the calls that it names.**  Where the directives of a job make operations, each
of them names a call, and after any number of entries the program that the operations build is
the one on which the calls are made: line by line, with the same fault at the same entry, and
with the same source of names left. -/
theorem build_eq_buildByCalls (g : Generator) {ds : List Directive} {ops : List Operation}
    (h : ds.mapM Directive.operation = .ok ops) :
    ∃ calls, ds.mapM Directive.call? = some calls
      ∧ ∀ n, g.build (ops.take n) = g.buildByCalls (calls.take n) := by
  obtain ⟨calls, hcalls, hall⟩ := Directive.makeAll_of_operations h
  refine ⟨calls, hcalls, ?_⟩
  intro n
  rw [build, hall n]
  rfl

end Generator

end

namespace Generator

/-- A job that goes on behind its end is stopped at its third entry, and so are its calls. -/
theorem build_eq_buildByCalls_of_late :
    let g : Generator := ⟨{ Config.standard with name := some "7" }, none⟩
    let plain (kind : DirectiveKind) : Directive := ⟨kind, none, none, none, true, false, false, none, none⟩
    let ds := [{ plain .setPositioning with positioning := some (.text " Relative") }, plain .terminate,
      plain .dropMill]
    let ops : List Operation := [.setMode .relative, .terminate (.bool false), .dropMill (.int 0)]
    ds.mapM Directive.operation = .ok ops
    ∧ (match (g.build (ops.take 2)).1, (g.build ops).1 with
      | .written _, .stopped (.notOpen (.text name) .closed) p => name == "7" && p.nextNumber == 10
      | _, _ => false) = true
    ∧ ∃ calls, ds.mapM Directive.call? = some calls
      ∧ ∀ n, g.build (ops.take n) = g.buildByCalls (calls.take n) := by
  intro g plain ds ops
  have hmode : DistanceMode.ofToken? (Text.lower (Text.trim " Relative")) = some .relative := by decide
  have h : ds.mapM Directive.operation = .ok ops := by
    show (do
      let op ← ((DistanceMode.ofValue? (.text " Relative")).mapError OperationError.mode).map Operation.setMode
      return op :: ops.drop 1) = _
    rw [DistanceMode.ofValue?_text hmode]
    rfl
  have hcalls := build_eq_buildByCalls g h
  refine ⟨h, ?_, hcalls⟩
  decide

end Generator

end PartProgram
