/-
What still happens to a closed program.

Ending a program closes it, and every directive is refused from then on.  A plain line is
not a directive: adding one looks at the listing and not at the phase, so between the end
and the evaluation plain lines still come in, behind the code that ends the program.
Everything else leaves the buffer alone but for the marker, which an evaluation adds once;
where something in the buffer is no text there is no listing to keep, and each attempt adds
another marker.

The same holds for operations.  Those behind an end that went through are refused as soon as
one of them is neither a raw line nor of a kind that is passed over; if there is none, there
is a listing, and the raw lines stand in it between the end and the marker.
-/
import PartProgram.Proofs.History
import PartProgram.Proofs.Listing

namespace PartProgram

open PartProgram.Numbering

section

variable [DigitLimit]

/-! ### Calls on a closed program

An evaluation of a closed program adds its marker before the text of the buffer is made.  Where
there is a listing from then on, this was the only marker; where something is no text it happens
every time.
-/

namespace Call

/-- Whether a call adds a plain line. -/
def isAddition : Call → Bool
  | add _ | addValue _ => true
  | _ => false

/-- Whether a call is an evaluation. -/
def isEval : Call → Bool
  | eval => true
  | _ => false

/-- How many markers evaluations add to a closed program. -/
def markers (p : Program) (evaluations : Nat) : Nat :=
  if p.listing.isSome then 0 else if p.strays.isEmpty then min 1 evaluations else evaluations

omit [DigitLimit] in
theorem entries_marker (n : Nat) : entries n [openMarker] = [openMarker] := by
  have h : entry n openMarker = openMarker := if_neg fun h => absurd h.2 (by decide)
  rw [entries, h]
  rfl

/-- Evaluating a closed program adds the marker; the listing is kept where there is one. -/
theorem run_eval_of_closed {p : Program} (hc : p.phase = .closed) (hl : p.listing = none) :
    (eval.run p).2.lines.toList = p.lines.toList ++ [openMarker] ∧ (eval.run p).2.phase = .closed
      ∧ (eval.run p).2.strays = p.strays ∧ (eval.run p).2.listing.isSome = p.strays.isEmpty := by
  have hstrays : (p.append openMarker).strays = p.strays := Program.strays_append _ _
  have hphase : (p.append openMarker).phase = .closed := by rw [Program.phase_append, hc]
  have hlines : (p.append openMarker).lines.toList = p.lines.toList ++ [openMarker] := by
    rw [Program.lines_append, entries_marker]
  have hlisting : (p.append openMarker).listing = none := by rw [Program.listing_append, hl]
  rw [snd_run, perform, Writing.left_map, Writing.run_eval_of_closed hl hc, Program.conclude, hstrays]
  by_cases hs : p.strays = #[]
  · rw [hs]
    exact ⟨hlines, hphase, hstrays.trans hs, rfl⟩
  · have hpos : 0 < p.strays.size := Array.size_pos_iff.mpr hs
    rw [Array.getElem?_eq_getElem hpos]
    refine ⟨hlines, hphase, hstrays, ?_⟩
    rw [Writing.left, hlisting, Array.isEmpty_eq_false_iff.mpr hs]
    rfl

theorem run_eval_of_evaluated {p : Program} {listing : String} (h : p.listing = some listing) :
    eval.run p = (.ok (some listing), p) := by
  rw [run, perform, EStateM.run_bind, Writing.run_eval_of_listing h]
  rfl

/-- **A closed program keeps its buffer.**  Short of plain lines, no history of calls adds
anything but the markers of its evaluations. -/
theorem lines_runAll_of_closed {p : Program} (hp : p.phase = .closed) {calls : List Call}
    (hc : ∀ c ∈ calls, c.isAddition = false) :
    (runAll calls p).lines.toList
      = p.lines.toList ++ List.replicate (markers p (calls.countP isEval)) openMarker := by
  induction calls generalizing p with
  | nil => simp [runAll, markers]
  | cons c rest ih =>
      have hrest : ∀ d ∈ rest, d.isAddition = false := fun d hd => hc d (List.mem_cons_of_mem c hd)
      have hc' := hc c List.mem_cons_self
      have hstep : runAll (c :: rest) p = runAll rest (c.run p).2 := rfl
      cases hd : c.isDirective with
      | true =>
          have heval : (c :: rest).countP isEval = rest.countP isEval := by
            refine List.countP_cons_of_neg ?_
            intro h
            cases c with
            | eval => cases hd
            | _ => cases h
          rw [hstep, run_of_closed hp hd, heval]
          exact ih hp hrest
      | false =>
          cases c with
          | assign a =>
              have hkept : markers ((assign a).run p).2 (rest.countP isEval) = markers p (rest.countP isEval) := by
                cases a <;> rfl
              have hlines : ((assign a).run p).2.lines = p.lines := by cases a <;> rfl
              have hphase : ((assign a).run p).2.phase = .closed := by cases a <;> exact hp
              have hnoeval : ¬ (assign a).isEval = true := Bool.false_ne_true
              rw [hstep, ih hphase hrest, hlines, hkept, List.countP_cons_of_neg hnoeval]
          | eval =>
              rw [hstep, List.countP_cons_of_pos rfl]
              cases hl : p.listing with
              | some listing =>
                  have hsome : p.listing.isSome = true := by rw [hl]; rfl
                  rw [run_eval_of_evaluated hl, ih hp hrest]
                  simp only [markers, if_pos hsome]
              | none =>
                  obtain ⟨hlines, hphase, hstrays, hlisting⟩ := run_eval_of_closed hp hl
                  have hnone : p.listing.isSome = false := by rw [hl]; rfl
                  rw [ih hphase hrest, hlines, markers, hlisting, hstrays, markers, hnone, List.append_assoc]
                  cases p.strays.isEmpty with
                  | true => simp
                  | false => simp [List.replicate_succ]
          | add line => cases hc'
          | addValue given => cases hc'
          | _ => cases hd

end Call

/-! ### Operations on a closed program

Raw lines are the only operations that are carried out by adding a line and not by a directive.
So they are all that can be carried out behind the end, and it takes no induction on programs to
see which operation stops a list: it is the first one that is carried out by a directive.
-/

namespace Operation

/-- The text of a raw line. -/
def rawText? : Operation → Option String
  | rawLine text => some text
  | _ => none

/-- Whether an operation is refused by a closed program. -/
def isRefusedLate (op : Operation) : Bool := op.isSupported && op.rawText?.isNone

omit [DigitLimit] in
/-- An operation that a closed program refuses is carried out by a directive. -/
theorem directive_of_isRefusedLate {op : Operation} (h : op.isRefusedLate = true) :
    ∃ c : Call, op.call? = some c ∧ c.isDirective = true := by
  cases op with
  | setMode m => exact ⟨_, rfl, rfl⟩
  | rapidMove target feed => exact ⟨_, rfl, rfl⟩
  | linearMove target feed => exact ⟨_, rfl, rfl⟩
  | dropMill depth => exact ⟨_, rfl, rfl⟩
  | raiseMill depth => exact ⟨_, rfl, rfl⟩
  | startSpindle clockwise => exact ⟨_, rfl, rfl⟩
  | stopSpindle => exact ⟨_, rfl, rfl⟩
  | startCoolant flood => exact ⟨_, rfl, rfl⟩
  | stopCoolant => exact ⟨_, rfl, rfl⟩
  | terminate force => exact ⟨_, rfl, rfl⟩
  | rawLine text => cases h
  | foreign kind => cases h
  | value v => cases h

end Operation

/-- The program `q` comes from the closed program `p` by plain lines. -/
structure Program.Trailing (p : Program) (raw : List String) (q : Program) : Prop extends Grown p raw q where
  phase : q.phase = .closed
  listing : q.listing = p.listing
  name : q.name = p.name
  follows : ∀ {c : Config} {name : String}, p.Follows c name → q.Follows c name

omit [DigitLimit] in
theorem Program.Trailing.trans {p q r : Program} {a b : List String} (h : p.Trailing a q) (h' : q.Trailing b r) :
    p.Trailing (a ++ b) r :=
  ⟨h.toGrown.trans h'.toGrown, h'.phase, h'.listing.trans h.listing, h'.name.trans h.name,
    fun hf => h'.follows (h.follows hf)⟩

omit [DigitLimit] in
theorem Program.name_append (line : String) (p : Program) : (p.append line).name = p.name := by
  rw [append_eq]

namespace Writing

open Operation

/-- One operation on a closed program that has not been evaluated. -/
theorem carryOut_of_closed {p : Program} (hc : p.phase = .closed) (hl : p.listing = none) (op : Operation) :
    if op.isRefusedLate then (carryOut op).run p = .error (.notOpen p.name .closed) p
    else ∃ q, (carryOut op).run p = .ok () q ∧ p.Trailing op.rawText?.toList q := by
  cases hlate : op.isRefusedLate with
  | true =>
      obtain ⟨c, hcall, hdirective⟩ := directive_of_isRefusedLate hlate
      rw [if_pos rfl, run_carryOut hcall, Call.run_of_closed hc hdirective]
  | false =>
      rw [if_neg Bool.false_ne_true]
      cases op with
      | rawLine text =>
          refine ⟨p.append text, ?_, Program.Grown.append p text, ?_, ?_, ?_, ?_⟩
          · rw [run_carryOut rfl, Call.run_add_of_listing hl]
          · rw [Program.phase_append, hc]
          · rw [Program.listing_append]
          · rw [Program.name_append]
          · exact fun hf => hf.append text
      | foreign kind =>
          exact ⟨_, rfl, (Program.Grown.refl p).congr rfl rfl, hc, rfl, rfl, fun hf => hf.withNotes _⟩
      | value v =>
          exact ⟨_, rfl, (Program.Grown.refl p).congr rfl rfl, hc, rfl, rfl, fun hf => hf.withNotes _⟩
      | _ => cases hlate

/-- **Operations on a closed program.**  The first directive among them is refused; without
one the raw lines are added in order. -/
theorem carryOutAll_of_closed {p : Program} (hc : p.phase = .closed) (hl : p.listing = none) (ops : List Operation) :
    if ops.any isRefusedLate then ∃ q, (carryOutAll ops).run p = .error (.notOpen p.name .closed) q
    else ∃ q, (carryOutAll ops).run p = .ok () q ∧ p.Trailing (ops.filterMap rawText?) q := by
  induction ops generalizing p with
  | nil => exact ⟨p, rfl, Program.Grown.refl p, hc, rfl, rfl, id⟩
  | cons op rest ih =>
      have hop := carryOut_of_closed hc hl op
      rw [List.any_cons, carryOutAll_cons]
      cases hlate : op.isRefusedLate with
      | true =>
          rw [hlate, if_pos rfl] at hop
          rw [Bool.true_or, if_pos rfl, EStateM.run_bind, hop]
          exact ⟨p, rfl⟩
      | false =>
          rw [hlate, if_neg Bool.false_ne_true] at hop
          obtain ⟨q, hrun, hq⟩ := hop
          have hrest := ih hq.phase (hq.listing.trans hl)
          rw [Bool.false_or, EStateM.run_bind, hrun]
          by_cases hany : rest.any isRefusedLate = true
          · rw [if_pos hany] at hrest ⊢
            rw [hq.name] at hrest
            exact hrest
          · rw [if_neg hany] at hrest ⊢
            obtain ⟨r, hr, htrailing⟩ := hrest
            have hlines : (op :: rest).filterMap rawText? = op.rawText?.toList ++ rest.filterMap rawText? := by
              rw [List.filterMap_cons]
              cases op.rawText? with
              | none => rfl
              | some text => rfl
            rw [hlines]
            exact ⟨r, hr, hq.trans htrailing⟩

variable {c : Config} {name : String}

/-- Operations that go through leave the settings alone and evaluate nothing. -/
theorem carryOut_sound {p q : Program} (hf : p.Follows c name) (hl : p.listing = none) {op : Operation}
    (h : (carryOut op).run p = .ok () q) : q.Follows c name ∧ q.listing = none := by
  cases hp : p.phase with
  | closed =>
      have hop := carryOut_of_closed hp hl op
      by_cases hlate : op.isRefusedLate = true
      · rw [if_pos hlate, h] at hop
        simp at hop
      · rw [if_neg hlate] at hop
        obtain ⟨r, hr, htrailing⟩ := hop
        rw [h] at hr
        obtain rfl := (EStateM.Result.ok.inj hr).2
        exact ⟨htrailing.follows hf, htrailing.listing.trans hl⟩
  | opened =>
      have ho : p.IsOpen := ⟨hp, hl⟩
      cases ht : op.isTerminate with
      | false =>
          obtain ⟨r, hr, hstep⟩ := carryOut_step ho hf ht
          obtain ⟨-, rfl⟩ := step_eq_ok (hstep.symm.trans h)
          exact ⟨hr.follows, hr.isOpen.listing⟩
      | true =>
          cases op with
          | terminate force =>
              obtain ⟨r, hr, hfinish⟩ := terminate_run ho hf force
              rw [run_carryOut_terminate] at h
              obtain ⟨hv, rfl⟩ := keeping_eq_ok (hr.symm.trans h)
              exact ⟨(hfinish hv).follows, (hfinish hv).listing⟩
          | _ => cases ht

theorem carryOutAll_sound {p q : Program} (hf : p.Follows c name) (hl : p.listing = none) {ops : List Operation}
    (h : (carryOutAll ops).run p = .ok () q) : q.Follows c name ∧ q.listing = none := by
  induction ops generalizing p with
  | nil =>
      obtain rfl := (EStateM.Result.ok.inj h).2
      exact ⟨hf, hl⟩
  | cons op rest ih =>
      rw [carryOutAll_cons, EStateM.run_bind] at h
      cases hop : (carryOut op).run p with
      | error e r => rw [hop] at h; simp at h
      | ok _ r =>
          rw [hop] at h
          obtain ⟨hfollows, hlisting⟩ := carryOut_sound hf hl hop
          exact ih hfollows hlisting h

/-- Operations that go through with an end as the last of them leave a closed program. -/
theorem closed_of_terminate {p q : Program} (hf : p.Follows c name) (hl : p.listing = none) {pre : List Operation}
    {force : Value} (h : (carryOutAll (pre ++ [.terminate force])).run p = .ok () q) :
    q.phase = .closed ∧ q.Follows c name ∧ q.listing = none := by
  have hsound := carryOutAll_sound hf hl h
  refine ⟨?_, hsound⟩
  rw [carryOutAll_append, EStateM.run_bind] at h
  cases hpre : (carryOutAll pre).run p with
  | error e r => rw [hpre] at h; simp at h
  | ok _ r =>
      rw [hpre] at h
      obtain ⟨hfollows, hlisting⟩ := carryOutAll_sound hf hl hpre
      have hend : (terminate force).run r = .ok () q := by
        rw [← run_carryOut_terminate, ← carryOutAll_single]
        exact h
      cases hr : r.phase with
      | closed =>
          have hrefused : (terminate force).run r = .error (.notOpen r.name .closed) r := run_of_closed hr _
          cases hrefused.symm.trans hend
      | opened =>
          obtain ⟨t, ht, hfinish⟩ := terminate_run ⟨hr, hlisting⟩ hfollows force
          obtain ⟨hv, rfl⟩ := keeping_eq_ok (ht.symm.trans hend)
          exact (hfinish hv).phase

end Writing

/-! ### What there is behind the end -/

namespace Generator

variable {g : Generator} {pre post : List Operation} {force : Value} {p q : Program}

/-- The operations up to an end that go through leave a closed program of the settings. -/
theorem closed_of_end (hp : g.openNext.1 = .ok p)
    (hq : (Writing.carryOutAll (pre ++ [.terminate force])).run p = .ok () q) :
    q.phase = .closed ∧ q.Follows g.config g.nextName ∧ q.listing = none := by
  obtain rfl := opened_of_openNext hp
  exact Writing.closed_of_terminate (Program.follows_opened _ _) (Program.isOpen_opened _ _).listing hq

/-- What a generator answers where the operations up to an end go through. -/
theorem generate_of_end (hp : g.openNext.1 = .ok p)
    (hq : (Writing.carryOutAll (pre ++ [.terminate force])).run p = .ok () q) :
    (g.generate (pre ++ .terminate force :: post)).1 =
      if post.any Operation.isRefusedLate then .error (.notOpen q.name .closed)
      else .ok ("\n".intercalate (q.lines.toList ++ entries q.nextNumber
        (post.filterMap Operation.rawText? ++ [openMarker]))) := by
  obtain ⟨hclosed, hfollows, hlisting⟩ := closed_of_end hp hq
  have hsplit : pre ++ .terminate force :: post = (pre ++ [.terminate force]) ++ post := by simp
  have hpost := Writing.carryOutAll_of_closed hclosed hlisting post
  rw [fst_generate, hp, hsplit, Writing.carryOutAll_append, bind_assoc, Except.bind,
    EStateM.run_bind, hq]
  by_cases hlate : post.any Operation.isRefusedLate = true
  · rw [if_pos hlate] at hpost ⊢
    obtain ⟨r, hr⟩ := hpost
    simp only [EStateM.run_bind, hr]
    rfl
  · rw [if_neg hlate] at hpost ⊢
    obtain ⟨r, hr, htrailing⟩ := hpost
    have heval := Writing.eval_of_closed htrailing.phase (htrailing.listing.trans hlisting)
      (htrailing.follows hfollows).strays
    have hlines := (htrailing.toGrown.snoc openMarker).lines
    simp only [EStateM.run_bind, hr, heval, Writing.answer, Program.listed, hlines]

end Generator

/-- **The life of a closed program.**  It refuses every directive and stays as it was, and a
history without plain lines adds nothing but markers; a plain line is refused only once
there is a listing.  The operations up to an end leave a closed program, so of those behind
it the raw ones get into the listing, and there is one exactly when no other operation is
among them. -/
theorem lifecycle_of_closed (p : Program) :
    (p.phase = .closed →
      (∀ c : Call, c.isDirective = true → c.run p = (.error (.notOpen p.name .closed), p))
      ∧ (∀ line, (Call.add line).run p =
          if p.listing.isSome then (.error (.evaluated p.name), p) else (.ok none, p.append line))
      ∧ ∀ calls : List Call, (∀ c ∈ calls, c.isAddition = false) →
          (Call.runAll calls p).lines.toList
            = p.lines.toList ++ List.replicate (Call.markers p (calls.countP Call.isEval)) openMarker)
    ∧ ∀ (g : Generator) (pre post : List Operation) (force : Value) (first : Program),
      g.openNext.1 = .ok first →
      (Writing.carryOutAll (pre ++ [.terminate force])).run first = .ok () p →
      p.phase = .closed ∧ (g.generate (pre ++ .terminate force :: post)).1 =
        if post.any Operation.isRefusedLate then .error (.notOpen p.name .closed)
        else .ok ("\n".intercalate (p.lines.toList ++ entries p.nextNumber
          (post.filterMap Operation.rawText? ++ [openMarker]))) := by
  refine ⟨fun hp => ⟨?_, ?_, ?_⟩, ?_⟩
  · intro c hc
    exact Call.run_of_closed hp hc
  · intro line
    by_cases hl : p.listing.isSome = true
    · rw [if_pos hl, Call.run_add_of_evaluated hl]
    · have hnone : p.listing = none := by simpa using hl
      rw [if_neg hl, Call.run_add_of_listing hnone]
  · intro calls hc
    exact Call.lines_runAll_of_closed hp hc
  · intro g pre post force first hfirst hend
    exact ⟨(Generator.closed_of_end hfirst hend).1, Generator.generate_of_end hfirst hend⟩

end

/-- A move behind the end of a program, given as a raw line. -/
theorem lifecycle_of_closed_of_move :
    let g : Generator := ⟨{ Config.standard with name := some "1" }, none⟩
    ∃ p q, g.openNext.1 = .ok p ∧ (Writing.carryOutAll ([] ++ [.terminate (.bool false)])).run p = .ok () q
    ∧ q.phase = .closed
    ∧ (g.generate [.terminate (.bool false), .rawLine "G01 X5"]).1 = .ok
      ("%\nO1\nN001 G21\nN002 G90\nN003 G00 Z100 F500\nN004 G00 X0 Y0 Z100 F500\nN005 M05\nN006 M09\n"
        ++ "N007 G00 Z100 F500\nN008 M30\nN009 G01 X5\n%") := by
  intro g
  let p := Program.opened g.config "1"
  let q := ((p.stopped.append (g.config.motionText g.config.raise)).append
    MiscellaneousCode.programEnd.toWord).ended (.bool false)
  have hraises : g.config.raise.IsFinite := by decide +kernel
  have hp : g.openNext.1 = .ok p := Program.openNext_of_isFinite rfl hraises (by decide +kernel)
  have ho : p.IsOpen := Program.isOpen_opened g.config "1"
  have hf : p.Follows g.config "1" := Program.follows_opened g.config "1"
  have hraise : p.millMotion p.clearance = .ok (g.config.motionText g.config.raise) := by
    rw [Program.millMotion, hf.clearance, Writing.motion_of_follows hf]
    exact congrArg (Except.map _) (Config.admits_of_isFinite hraises)
  have hq : (Writing.carryOutAll ([] ++ [.terminate (.bool false)])).run p = .ok () q := by
    rw [List.nil_append, Writing.carryOutAll_single, Writing.run_carryOut_terminate,
      Writing.run_terminate_of_unforced ho rfl, hraise]
  refine ⟨p, q, hp, hq, rfl, ?_⟩
  have hanswer := (lifecycle_of_closed q).2 g [] [.rawLine "G01 X5"] (.bool false) p hp hq
  exact hanswer.2.trans (congrArg Except.ok (by decide))

end PartProgram
