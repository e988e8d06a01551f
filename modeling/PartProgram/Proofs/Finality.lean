/-
An evaluated program is final.

There are two guards in front of the buffer.  Directives look at the phase, and plain lines
look at the listing; neither looks at the other.  What makes the two agree is that a listing
comes about in a closed program only, so from the first evaluation that goes through both
guards are shut, and they stay shut: no call opens a program again, and none takes a listing
back.  What is left are the attributes, which may still be assigned and which nothing that
is still possible depends on.
-/
import PartProgram.Command.Failure
import PartProgram.Proofs.Outcomes

namespace PartProgram

section

variable [DigitLimit]

/-- Of an evaluated program `q`, `r` has kept what there is to keep.  It gives out the listing
as often as it is asked to, and refuses what would add to it. -/
structure Program.Final (listing : String) (q r : Program) : Prop extends q.Untouched r where
  /-- The listing is the text of what is in the buffer. -/
  text : listing = r.listed
  eval : Call.eval.run r = (.ok (some listing), r)
  directive : ∀ c : Call, c.isDirective = true → c.run r = (.error (.notOpen r.name .closed), r)
  addition : ∀ c : Call, c.isAddition = true → c.run r = (.error (.evaluated r.name), r)
  /-- Both refusals name the program, and they are told where that name can be written. -/
  told : (ProgramError.notOpen r.name .closed).isRefusal = r.name.isWritten
    ∧ (ProgramError.evaluated r.name).isRefusal = r.name.isWritten

omit [DigitLimit] in
/-- Where there is a listing the program is closed. -/
theorem Program.closed_of_listing {p : Program} (hp : p.Consistent) {listing : String} (hl : p.listing = some listing) :
    p.phase = .closed := by
  cases hphase : p.phase with
  | closed => rfl
  | opened =>
      have hnone := hp hphase
      rw [hl] at hnone
      cases hnone

namespace Call

variable {p q : Program} {listing : String}

omit [DigitLimit] in
theorem addition?_of_isAddition {c : Call} (h : c.isAddition = true) : ∃ v, c.addition? = some v := by
  cases c with
  | add line => exact ⟨_, rfl⟩
  | addValue v => exact ⟨v, rfl⟩
  | _ => cases h

/-- Of an evaluated program every call keeps everything but the attributes. -/
theorem kept_of_evaluated (hp : p.phase = .closed) (hl : p.listing = some listing) (c : Call) :
    (c.run p).2.lines = p.lines ∧ (c.run p).2.nextNumber = p.nextNumber ∧ (c.run p).2.phase = .closed
      ∧ (c.run p).2.listing = some listing := by
  cases hd : c.isDirective with
  | true =>
      rw [run_of_closed hp hd]
      exact ⟨rfl, rfl, hp, hl⟩
  | false =>
      have hsome : p.listing.isSome = true := by simp [hl]
      cases c with
      | add line =>
          rw [run_add_of_evaluated hsome]
          exact ⟨rfl, rfl, hp, hl⟩
      | addValue v =>
          rw [run_of_addition_of_evaluated rfl hsome]
          exact ⟨rfl, rfl, hp, hl⟩
      | eval =>
          rw [run_eval_of_evaluated hl]
          exact ⟨rfl, rfl, hp, hl⟩
      | assign a => cases a <;> exact ⟨rfl, rfl, hp, hl⟩
      | _ => cases hd

theorem kept_runAll_of_evaluated (hp : p.phase = .closed) (hl : p.listing = some listing) (calls : List Call) :
    (runAll calls p).lines = p.lines ∧ (runAll calls p).nextNumber = p.nextNumber
      ∧ (runAll calls p).phase = .closed ∧ (runAll calls p).listing = some listing := by
  induction calls generalizing p with
  | nil => exact ⟨rfl, rfl, hp, hl⟩
  | cons c rest ih =>
      obtain ⟨hlines, hnumber, hphase, hlisting⟩ := kept_of_evaluated hp hl c
      obtain ⟨hlines', hnumber', hrest⟩ := ih hphase hlisting
      exact ⟨hlines'.trans hlines, hnumber'.trans hnumber, hrest⟩

/-- Both guards are shut. -/
theorem final_of_evaluated (hp : p.phase = .closed) (hl : p.listing = some listing) (htext : listing = p.listed)
    (calls : List Call) : p.Final listing (runAll calls p) := by
  obtain ⟨hlines, hnumber, hphase, hlisting⟩ := kept_runAll_of_evaluated hp hl calls
  refine ⟨⟨hlines, hnumber, hphase.trans hp.symm⟩, ?_, run_eval_of_evaluated hlisting, ?_, ?_, rfl, rfl⟩
  · rw [htext, Program.listed, Program.listed, hlines]
  · intro c hc
    exact run_of_closed hphase hc
  · intro c hc
    obtain ⟨v, hv⟩ := addition?_of_isAddition hc
    exact run_of_addition_of_evaluated hv (by simp [hlisting])

/-- **An evaluated program is final.**  A new program is open, and once a history of calls has
closed it no further call opens it.  Where an evaluation gives out a listing the program is
closed, and whatever is called from then on, the listing, the buffer, the number and the
phase stay what they are, and everything that would add to them is refused. -/
theorem final_of_eval {c : Config} {names : NameSource} {p : Program} (h : (Program.openNext c names).1 = .ok p)
    (pre : List Call) :
    p.phase = .opened
    ∧ (∀ post, (runAll pre p).phase = .closed → (runAll (pre ++ post) p).phase = .closed)
    ∧ ∀ listing q, eval.run (runAll pre p) = (.ok (some listing), q) →
      q.phase = .closed ∧ ∀ post, q.Final listing (runAll post q) := by
  obtain rfl := Program.opened_of_openNext h
  have ho := Program.isOpen_opened c (c.nextName names).1
  refine ⟨ho.phase, ?_, ?_⟩
  · intro post hclosed
    rw [runAll_append]
    exact closed_runAll hclosed post
  · intro listing q heval
    have hpre := (recorded_runAll ho.consistent pre).consistent
    have hgives := (gives_iff hpre).mpr heval
    obtain ⟨hlisting, htext⟩ :=
      hgives.listing_of_ok (listsBuffer_runAll ho.consistent (Program.listsBuffer_of_none ho.listing) pre) rfl
    have hrecorded := recorded_run hpre eval
    rw [heval] at hrecorded
    have hclosed := Program.closed_of_listing hrecorded.consistent hlisting
    exact ⟨hclosed, final_of_evaluated hclosed hlisting htext⟩

end Call

end

/-- A cut and an evaluation; what comes after it is in vain, but for the feed rate. -/
theorem Call.final_of_eval_of_cut :
    let c : Config := { Config.standard with name := some "7" }
    let p := Program.opened c "7"
    let pre : List Call := [.linearMove (.tuple [.int 1]) .null]
    let q := (Call.eval.run (Call.runAll pre p)).2
    let listing := "%\nO7\nN001 G21\nN002 G90\nN003 G00 Z100 F500\nN004 G00 X0 Y0 Z100 F500\nN005 G01 X10 F500\n"
      ++ "N006 M05\nN007 M09\nN008 G00 Z100 F500\nN009 M30\n%"
    (Program.openNext c .standard).1 = .ok p ∧ Call.eval.run (Call.runAll pre p) = (.ok (some listing), q)
    ∧ q.Final listing (Call.runAll [.add "G01 X5", .assign (.feedrate (.int 1)), .terminate (.bool true), .eval] q) := by
  intro c p pre q listing
  have h : (Program.openNext c .standard).1 = .ok p :=
    Program.openNext_of_isFinite rfl (by decide +kernel) (by decide +kernel)
  have heval : Call.eval.run (Call.runAll pre p) = (.ok (some listing), q) := by
    have hanswer : (Call.eval.run (Call.runAll pre p)).1.toOption = some (some listing) := by decide +kernel
    rw [← eq_ok_of_toOption hanswer]
  exact ⟨h, heval, ((Call.final_of_eval h pre).2.2 listing q heval).2 _⟩

end PartProgram
