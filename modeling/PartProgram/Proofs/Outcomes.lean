/-
What comes of a call.

A call is refused, or adds its line, or finds fault with what it was given, or ends the
program, or closes the listing.  `Gives` has one rule for each of these, with the answer and
the program after it.  An evaluation of an open program is made of two of them, the end and
the evaluation of what there is then, which is why the rules are an inductive family and not
a list of cases.

The rules are the runs: on a program where only a closed one has a listing, a call gives what
running it gives and nothing else.  So what holds of every call is shown rule by rule, and
two programs that meet the conditions of the same rule have the same to answer.
-/
import PartProgram.Proofs.Lifecycle

namespace PartProgram

variable [DigitLimit]

namespace Call

/-- What a call adds as it is. -/
def addition? : Call → Option Value
  | add line => some (.text line)
  | addValue v => some v
  | _ => none

/-- A call that may add nothing but texts. -/
def AddsText (c : Call) : Prop := ∀ v, c.addition? = some v → ∃ line, v = .text line

section

omit [DigitLimit]

theorem addsText_of_none {c : Call} (h : c.addition? = none) : c.AddsText := by
  intro v hv
  rw [h] at hv
  cases hv

theorem addsText_terminate (force : Value) : (terminate force).AddsText := addsText_of_none rfl

theorem addsText_add (line : String) : (add line).AddsText := fun _ hv => ⟨line, (Option.some.inj hv).symm⟩

/-- What a call answers on a program, and the program after it, rule by rule. -/
inductive Gives : Call → Program → Except ProgramError (Option String) → Program → Prop where
  /-- A closed program refuses a directive. -/
  | refused {c : Call} {p : Program} (hc : c.isDirective = true) (hp : p.phase = .closed) :
      Gives c p (.error (.notOpen p.name .closed)) p
  /-- A directive of one line adds it. -/
  | written {c : Call} {p : Program} {line : String} (ho : p.IsOpen) (hline : c.line? p = some (.ok line)) :
      Gives c p (.ok none) ((p.append line).inMode (c.modeAfter p))
  /-- Something is wrong with what a directive of one line was given. -/
  | faulty {c : Call} {p : Program} {e : ProgramError} (ho : p.IsOpen) (hline : c.line? p = some (.error e)) :
      Gives c p (.error e) p
  /-- A forced end is a single line. -/
  | forced {p : Program} {force : Value} (ho : p.IsOpen) (hf : force.isTrue = true) :
      Gives (terminate force) p (.ok none) ((p.append MiscellaneousCode.forcedStop.toWord).ended force)
  /-- Any other end raises the mill between the stops and its code. -/
  | ended {p : Program} {force : Value} {up : String} (ho : p.IsOpen) (hf : force.isTrue = false)
      (hup : p.millMotion p.clearance = .ok up) :
      Gives (terminate force) p (.ok none)
        (((p.stopped.append up).append MiscellaneousCode.programEnd.toWord).ended force)
  /-- Where the mill cannot be raised, the end stays behind the stops. -/
  | stuck {p : Program} {force : Value} {e : ProgramError} (ho : p.IsOpen) (hf : force.isTrue = false)
      (hup : p.millMotion p.clearance = .error e) : Gives (terminate force) p (.error e) p.stopped
  /-- A text is added as a line. -/
  | added {c : Call} {p : Program} {line : String} (hc : c.addition? = some (.text line)) (hl : p.listing = none) :
      Gives c p (.ok none) (p.append line)
  /-- Without numbers anything is added. -/
  | stray {c : Call} {p : Program} {v : Value} (hc : c.addition? = some v) (hv : ∀ line, v ≠ .text line)
      (hl : p.listing = none) (hn : p.nextNumber = 0) : Gives c p (.ok none) (p.appendStray v)
  /-- What is no text cannot be numbered. -/
  | unnumbered {c : Call} {p : Program} {v : Value} (hc : c.addition? = some v) (hv : ∀ line, v ≠ .text line)
      (hl : p.listing = none) (hn : p.nextNumber ≠ 0) : Gives c p (.error (.line ⟨v.kindName⟩)) p
  /-- An evaluated program takes nothing any more. -/
  | late {c : Call} {p : Program} {v : Value} (hc : c.addition? = some v) (hl : p.listing.isSome = true) :
      Gives c p (.error (.evaluated p.name)) p
  /-- The listing is given out again. -/
  | repeated {p : Program} {listing : String} (hl : p.listing = some listing) :
      Gives eval p (.ok (some listing)) p
  /-- The listing of a closed program is closed. -/
  | sealed {p : Program} (hp : p.phase = .closed) (hl : p.listing = none) (hs : p.strays = #[]) :
      Gives eval p (.ok (some (p.append openMarker).listed)) (p.append openMarker).sealed
  /-- There is no listing where something is no text. -/
  | unlisted {p : Program} {index : Nat} {v : Value} (hp : p.phase = .closed) (hl : p.listing = none)
      (hs : p.strays[0]? = some (index, v)) :
      Gives eval p (.error (.stray index v.kindName)) (p.append openMarker)
  /-- An open program that cannot be ended is not evaluated. -/
  | unended {p q : Program} {e : ProgramError} (ho : p.IsOpen) (h : Gives (terminate (.bool false)) p (.error e) q) :
      Gives eval p (.error e) q
  /-- An open program is ended and then evaluated. -/
  | finished {p q r : Program} {answer : Except ProgramError (Option String)} (ho : p.IsOpen)
      (h : Gives (terminate (.bool false)) p (.ok none) q) (h' : Gives eval q answer r) : Gives eval p answer r
  /-- An attribute is assigned. -/
  | assigned {p : Program} (a : Assignment) : Gives (assign a) p (.ok none) (a.apply p)

end

variable {c : Call} {p q : Program} {answer : Except ProgramError (Option String)}

/-! ### The rules are the runs

That each rule is followed by the run is shown by the equations of the actions.  The other
direction needs only that some rule applies to every call on every consistent program, since two
results of one run are the same.
-/

theorem run_terminate (force : Value) (p : Program) :
    (terminate force).run p = match (Writing.terminate force).run p with
      | .ok _ q => (.ok none, q)
      | .error e q => (.error e, q) := by
  rw [run, perform, EStateM.run_bind]
  cases (Writing.terminate force).run p with
  | ok _ q => rfl
  | error e q => rfl

theorem run_eval (p : Program) :
    eval.run p = match Writing.eval.run p with
      | .ok listing q => (.ok (some listing), q)
      | .error e q => (.error e, q) := by
  rw [run, perform, EStateM.run_bind]
  cases Writing.eval.run p with
  | ok listing q => rfl
  | error e q => rfl

/-- Evaluating an open program is evaluating what its end leaves, if it ends. -/
theorem run_eval_of_open (ho : p.IsOpen) :
    eval.run p = match (terminate (.bool false)).run p with
      | (.ok _, q) => eval.run q
      | (.error e, q) => (.error e, q) := by
  rw [run_eval, Writing.run_eval_of_open ho, EStateM.run_bind, run_terminate]
  cases (Writing.terminate (.bool false)).run p with
  | ok _ q => exact (run_eval q).symm
  | error e q => rfl

theorem run_of_addition {v : Value} (hc : c.addition? = some v) (p : Program) : c.run p = (addValue v).run p := by
  cases c with
  | add line =>
      obtain rfl := Option.some.inj hc
      rfl
  | addValue w =>
      obtain rfl := Option.some.inj hc
      rfl
  | _ => cases hc

theorem run_of_addition_of_evaluated {v : Value} (hc : c.addition? = some v) (hl : p.listing.isSome = true) :
    c.run p = (.error (.evaluated p.name), p) := by
  rw [run_of_addition hc]
  by_cases hv : ∃ line, v = .text line
  · obtain ⟨line, rfl⟩ := hv
    exact run_add_of_evaluated hl line
  · rw [run_addValue (fun line h => hv ⟨line, h⟩), if_pos hl]

/-- What a call gives is what it runs to. -/
theorem Gives.run_eq (h : c.Gives p answer q) : c.run p = (answer, q) := by
  induction h with
  | refused hc hp => exact run_of_closed hp hc
  | written ho hline => exact run_of_open ho hline
  | faulty ho hline => exact run_of_open ho hline
  | forced ho hf => rw [run_terminate, Writing.run_terminate_of_forced ho hf]
  | ended ho hf hup => simp only [run_terminate, Writing.run_terminate_of_unforced ho hf, hup]
  | stuck ho hf hup => simp only [run_terminate, Writing.run_terminate_of_unforced ho hf, hup]
  | added hc hl =>
      rw [run_of_addition hc]
      exact run_add_of_listing hl _
  | stray hc hv hl hn => simp [run_of_addition hc, run_addValue hv, hl, hn]
  | unnumbered hc hv hl hn => simp [run_of_addition hc, run_addValue hv, hl, hn]
  | late hc hl => exact run_of_addition_of_evaluated hc hl
  | repeated hl => exact run_eval_of_evaluated hl
  | sealed hp hl hs => rw [run_eval, Writing.eval_of_closed hp hl hs]
  | unlisted hp hl hs =>
      simp only [run_eval, Writing.run_eval_of_closed hl hp, Program.conclude, Program.strays_append, hs]
  | unended ho h ih => rw [run_eval_of_open ho, ih]
  | finished ho h h' ih ih' =>
      rw [run_eval_of_open ho, ih]
      exact ih'
  | assigned a => rfl

theorem exists_gives_of_line (hp : p.Consistent) {r : Except ProgramError String} (hline : c.line? p = some r)
    (hc : c.isDirective = true) : ∃ answer q, c.Gives p answer q := by
  by_cases ho : p.phase = .opened
  · cases r with
    | ok line => exact ⟨_, _, .written (hp.isOpen ho) hline⟩
    | error e => exact ⟨_, _, .faulty (hp.isOpen ho) hline⟩
  · exact ⟨_, _, .refused hc (Program.closed_of_not_opened ho)⟩

theorem exists_gives_of_addition (p : Program) {v : Value} (hc : c.addition? = some v) :
    ∃ answer q, c.Gives p answer q := by
  cases hl : p.listing with
  | some listing => exact ⟨_, _, .late hc (by simp [hl])⟩
  | none =>
      by_cases hv : ∃ line, v = .text line
      · obtain ⟨line, rfl⟩ := hv
        exact ⟨_, _, .added hc hl⟩
      · have htext : ∀ line, v ≠ .text line := fun line h => hv ⟨line, h⟩
        by_cases hn : p.nextNumber = 0
        · exact ⟨_, _, .stray hc htext hl hn⟩
        · exact ⟨_, _, .unnumbered hc htext hl hn⟩

theorem exists_gives_of_terminate (hp : p.Consistent) (force : Value) :
    ∃ answer q, (terminate force).Gives p answer q := by
  by_cases ho : p.phase = .opened
  · cases hf : force.isTrue with
    | true => exact ⟨_, _, .forced (hp.isOpen ho) hf⟩
    | false =>
        cases hup : p.millMotion p.clearance with
        | ok up => exact ⟨_, _, .ended (hp.isOpen ho) hf hup⟩
        | error e => exact ⟨_, _, .stuck (hp.isOpen ho) hf hup⟩
  · exact ⟨_, _, .refused rfl (Program.closed_of_not_opened ho)⟩

theorem exists_gives_of_eval_closed (hc : p.phase = .closed) : ∃ answer q, eval.Gives p answer q := by
  cases hl : p.listing with
  | some listing => exact ⟨_, _, .repeated hl⟩
  | none =>
      by_cases hs : p.strays = #[]
      · exact ⟨_, _, .sealed hc hl hs⟩
      · have hfirst := Array.getElem?_eq_getElem (Array.size_pos_iff.mpr hs)
        exact ⟨_, _, .unlisted hc hl hfirst⟩

/-- An end that goes through leaves a closed program without a listing. -/
theorem closed_of_gives_terminate {force : Value} (h : (terminate force).Gives p (.ok none) q) :
    q.phase = .closed ∧ q.listing = none := by
  cases h with
  | written ho hline => cases hline
  | forced ho hf => exact ⟨rfl, (ho.append _).listing⟩
  | ended ho hf hup => exact ⟨rfl, by simp [ho.stopped.listing]⟩
  | added hc hl => cases hc
  | stray hc hv hl hn => cases hc

theorem exists_gives_of_eval (hp : p.Consistent) : ∃ answer q, eval.Gives p answer q := by
  by_cases ho : p.phase = .opened
  · obtain ⟨answer, q, h⟩ := exists_gives_of_terminate hp (.bool false)
    have hopen := hp.isOpen ho
    cases hup : p.millMotion p.clearance with
    | error e => exact ⟨_, _, .unended hopen (.stuck hopen rfl hup)⟩
    | ok up =>
        have hend : (terminate (.bool false)).Gives p (.ok none) _ := .ended hopen rfl hup
        obtain ⟨answer, r, h'⟩ := exists_gives_of_eval_closed (closed_of_gives_terminate hend).1
        exact ⟨_, _, .finished hopen hend h'⟩
  · exact exists_gives_of_eval_closed (Program.closed_of_not_opened ho)

/-- **Every call gives something.** -/
theorem exists_gives (hp : p.Consistent) (c : Call) : ∃ answer q, c.Gives p answer q := by
  cases c with
  | setMode given => exact exists_gives_of_line hp rfl rfl
  | rapidMove position feed => exact exists_gives_of_line hp rfl rfl
  | linearMove position feed => exact exists_gives_of_line hp rfl rfl
  | dropMill depth => exact exists_gives_of_line hp rfl rfl
  | raiseMill depth => exact exists_gives_of_line hp rfl rfl
  | startSpindle clockwise => exact exists_gives_of_line hp rfl rfl
  | stopSpindle => exact exists_gives_of_line hp rfl rfl
  | startCoolant flood => exact exists_gives_of_line hp rfl rfl
  | stopCoolant => exact exists_gives_of_line hp rfl rfl
  | terminate force => exact exists_gives_of_terminate hp force
  | add line => exact exists_gives_of_addition p rfl
  | addValue given => exact exists_gives_of_addition p rfl
  | eval => exact exists_gives_of_eval hp
  | assign a => exact ⟨_, _, .assigned a⟩

/-- **The rules are the runs.** -/
theorem gives_run (hp : p.Consistent) (c : Call) : c.Gives p (c.run p).1 (c.run p).2 := by
  obtain ⟨answer, q, h⟩ := exists_gives hp c
  rw [h.run_eq]
  exact h

theorem gives_iff (hp : p.Consistent) : c.Gives p answer q ↔ c.run p = (answer, q) := by
  constructor
  · exact Gives.run_eq
  · intro h
    have hrun := gives_run hp c
    rw [h] at hrun
    exact hrun

/-- **What every call keeps a history keeps.** -/
theorem runAll_invariant {I : Program → Prop} {calls : List Call}
    (hstep : ∀ d ∈ calls, ∀ p answer q, d.Gives p answer q → I p → I q) (hp : p.Consistent) (h : I p) :
    I (runAll calls p) := by
  induction calls generalizing p with
  | nil => exact h
  | cons d rest ih =>
      have hd : I (d.run p).2 := hstep d List.mem_cons_self p _ _ (gives_run hp d) h
      exact ih (fun b hb => hstep b (List.mem_cons_of_mem d hb)) (recorded_run hp d).consistent hd

end Call

/-! ### What no call changes, and what only one way -/

namespace Program

omit [DigitLimit] in
@[simp]
theorem config_append (line : String) (p : Program) : (p.append line).config = p.config := by
  rw [append_eq]

@[simp]
theorem config_ended (force : Value) (p : Program) : (p.ended force).config = p.config := rfl

@[simp]
theorem strays_ended (force : Value) (p : Program) : (p.ended force).strays = p.strays := rfl

section

omit [DigitLimit]

@[simp]
theorem config_stopped (p : Program) : p.stopped.config = p.config := by
  simp [stopped]

@[simp]
theorem strays_stopped (p : Program) : p.stopped.strays = p.strays := by
  simp [stopped]

/-- Of `p`, `q` has kept the buffer, the number and the phase. -/
structure Untouched (p q : Program) : Prop where
  lines : q.lines = p.lines
  nextNumber : q.nextNumber = p.nextNumber
  phase : q.phase = p.phase

/-- A listing is the text of the buffer. -/
def ListsBuffer (p : Program) : Prop := ∀ listing, p.listing = some listing → listing = p.listed

theorem listsBuffer_of_none {p : Program} (h : p.listing = none) : p.ListsBuffer := by
  intro listing hl
  rw [h] at hl
  cases hl

end

end Program

namespace Call

variable {c : Call} {p q : Program} {answer : Except ProgramError (Option String)}

/-- The configuration of a program is the one that it was opened with. -/
theorem Gives.config (h : c.Gives p answer q) : q.config = p.config := by
  induction h with
  | written ho hline => exact Program.config_append _ _
  | forced ho hf => exact Program.config_append _ _
  | ended ho hf hup => simp
  | stuck ho hf hup => exact Program.config_stopped _
  | added hc hl => exact Program.config_append _ _
  | sealed hp hl hs => exact Program.config_append _ _
  | unlisted hp hl hs => exact Program.config_append _ _
  | unended ho h ih => exact ih
  | finished ho h h' ih ih' => exact ih'.trans ih
  | assigned a => cases a <;> rfl
  | _ => rfl

/-- Where texts are added, nothing but texts is added. -/
theorem Gives.strays (h : c.Gives p answer q) (ht : c.AddsText) : q.strays = p.strays := by
  induction h with
  | written ho hline => exact Program.strays_append _ _
  | forced ho hf => exact Program.strays_append _ _
  | ended ho hf hup => simp
  | stuck ho hf hup => exact Program.strays_stopped _
  | added hc hl => exact Program.strays_append _ _
  | stray hc hv hl hn =>
      obtain ⟨line, rfl⟩ := ht _ hc
      exact absurd rfl (hv line)
  | sealed hp hl hs => exact Program.strays_append _ _
  | unlisted hp hl hs => exact Program.strays_append _ _
  | unended ho h ih => exact ih (addsText_terminate _)
  | finished ho h h' ih ih' => exact (ih' ht).trans (ih (addsText_terminate _))
  | assigned a => cases a <;> rfl
  | _ => rfl

/-- A program is closed once and for all. -/
theorem Gives.phase (h : c.Gives p answer q) : q.phase = .closed ∨ q.phase = p.phase := by
  induction h with
  | written ho hline => exact Or.inr (Program.phase_append _ _)
  | forced ho hf => exact Or.inl rfl
  | ended ho hf hup => exact Or.inl rfl
  | stuck ho hf hup => exact Or.inr (ho.stopped.phase.trans ho.phase.symm)
  | added hc hl => exact Or.inr (Program.phase_append _ _)
  | sealed hp hl hs => exact Or.inr (Program.phase_append _ _)
  | unlisted hp hl hs => exact Or.inr (Program.phase_append _ _)
  | unended ho h ih => exact ih
  | finished ho h h' ih ih' =>
      rcases ih' with hclosed | hsame
      · exact Or.inl hclosed
      · exact Or.inl (hsame.trans (closed_of_gives_terminate h).1)
  | assigned a => exact Or.inr (by cases a <;> rfl)
  | _ => exact Or.inr rfl

theorem Gives.listsBuffer (h : c.Gives p answer q) (hp : p.ListsBuffer) : q.ListsBuffer := by
  induction h with
  | written ho hline => exact Program.listsBuffer_of_none (ho.append _).listing
  | forced ho hf => exact Program.listsBuffer_of_none (ho.append _).listing
  | ended ho hf hup => exact Program.listsBuffer_of_none (by simp [ho.stopped.listing])
  | stuck ho hf hup => exact Program.listsBuffer_of_none ho.stopped.listing
  | added hc hl => exact Program.listsBuffer_of_none ((Program.listing_append _ _).trans hl)
  | stray hc hv hl hn => exact Program.listsBuffer_of_none hl
  | sealed hp hl hs =>
      intro listing hlisting
      exact (Option.some.inj hlisting).symm
  | unlisted hp hl hs => exact Program.listsBuffer_of_none ((Program.listing_append _ _).trans hl)
  | unended ho h ih => exact ih hp
  | finished ho h h' ih ih' => exact ih' (ih hp)
  | assigned a => cases a <;> exact hp
  | _ => exact hp

/-- A listing that is answered is kept, and it is the text of the buffer. -/
theorem Gives.listing_of_ok (h : c.Gives p answer q) (hp : p.ListsBuffer) {listing : String}
    (ha : answer = .ok (some listing)) : q.listing = some listing ∧ listing = q.listed := by
  induction h with
  | repeated hl =>
      obtain rfl := Option.some.inj (Except.ok.inj ha)
      exact ⟨hl, hp _ hl⟩
  | sealed hp hl hs =>
      obtain rfl := Option.some.inj (Except.ok.inj ha)
      exact ⟨rfl, rfl⟩
  | finished ho h h' ih ih' => exact ih' (h.listsBuffer hp) ha
  | _ => cases ha

/-! ### The same along a history -/

theorem config_runAll (hp : p.Consistent) (calls : List Call) : (runAll calls p).config = p.config :=
  runAll_invariant (I := fun q => q.config = p.config) (fun _ _ _ _ _ h hq => h.config.trans hq) hp rfl

theorem listsBuffer_runAll (hp : p.Consistent) (hl : p.ListsBuffer) (calls : List Call) :
    (runAll calls p).ListsBuffer :=
  runAll_invariant (fun _ _ _ _ _ h hq => h.listsBuffer hq) hp hl

theorem strays_runAll (hp : p.Consistent) (hs : p.strays = #[]) {calls : List Call}
    (h : ∀ d ∈ calls, d.AddsText) : (runAll calls p).strays = #[] :=
  runAll_invariant (I := fun q => q.strays = #[])
    (fun d hd _ _ _ hgives hq => (hgives.strays (h d hd)).trans hq) hp hs

/-- A closed program stays closed. -/
theorem closed_runAll (hp : p.phase = .closed) (calls : List Call) : (runAll calls p).phase = .closed := by
  have hstep : ∀ d ∈ calls, ∀ p answer q, d.Gives p answer q → p.phase = .closed → q.phase = .closed := by
    intro d _ p answer q h hclosed
    rcases h.phase with hq | hq
    · exact hq
    · exact hq.trans hclosed
  exact runAll_invariant hstep (Program.consistent_of_closed hp) hp

end Call

end PartProgram
