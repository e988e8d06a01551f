/-
The buffer is the history of what was accepted.

Whatever is done to a program, its buffer grows at its end by the entries of the lines that
the call hands over and that are accepted.  `Call.accepted` says which lines these are: the
line of a directive on an open program, a plain line until the program has been evaluated,
several at the end of the program, the closing marker at an evaluation, and none at a call
that fails before it adds anything.  A call that fails half way counts with the lines it got
to.

The invariant that carries this over a run is that only a closed program has a listing.  It
is what lets a directive look at the phase alone, while adding a line looks at the listing
alone.
-/
import PartProgram.Proofs.Opening

namespace PartProgram

open PartProgram.Numbering

namespace Program

/-- Only a closed program has a listing. -/
def Consistent (p : Program) : Prop := p.phase = .opened → p.listing = none

theorem Consistent.isOpen {p : Program} (h : p.Consistent) (hp : p.phase = .opened) : p.IsOpen := ⟨hp, h hp⟩

theorem IsOpen.consistent {p : Program} (h : p.IsOpen) : p.Consistent := fun _ => h.listing

theorem consistent_of_closed {p : Program} (h : p.phase = .closed) : p.Consistent := by
  intro hp
  rw [h] at hp
  simp at hp

theorem closed_of_not_opened {p : Program} (h : ¬ p.phase = .opened) : p.phase = .closed := by
  cases hp : p.phase with
  | opened => exact absurd hp h
  | closed => rfl

/-- The program `q` comes from `p` by accepting some lines. -/
structure Recorded (p : Program) (raw : List String) (q : Program) : Prop extends Grown p raw q where
  consistent : q.Consistent

theorem Recorded.refl {p : Program} (h : p.Consistent) : Recorded p [] p := ⟨Grown.refl p, h⟩

theorem Recorded.trans {p q r : Program} {a b : List String} (h : Recorded p a q) (h' : Recorded q b r) :
    Recorded p (a ++ b) r :=
  ⟨h.toGrown.trans h'.toGrown, h'.consistent⟩

/-- The lines that end an open program; without the last two where the mill cannot be
raised. -/
def endLines [DigitLimit] (p : Program) (forced : Bool) : List String :=
  if forced then [MiscellaneousCode.forcedStop.toWord]
  else [MiscellaneousCode.spindleStop.toWord, MiscellaneousCode.coolantStop.toWord] ++
    match p.millMotion p.clearance with
    | .ok line => [line, MiscellaneousCode.programEnd.toWord]
    | .error _ => []

/-- The lines that an evaluation adds. -/
def evalLines [DigitLimit] (p : Program) : List String :=
  if p.listing.isSome then []
  else if p.phase = .opened then
    p.endLines false ++ match p.millMotion p.clearance with
      | .ok _ => [openMarker]
      | .error _ => []
  else [openMarker]

end Program

/-- The program that an action leaves, also where it fails. -/
def Writing.left {α : Type} : EStateM.Result ProgramError Program α → Program
  | .ok _ p => p
  | .error _ p => p

theorem Writing.left_map {α β : Type} (m : Writing α) (f : α → β) (p : Program) :
    left ((do return f (← m) : Writing β).run p) = left (m.run p) := by
  rw [EStateM.run_bind]
  cases m.run p with
  | ok a q => rfl
  | error e q => rfl

/-- What is no text is taken as it is where lines are not numbered. -/
theorem Writing.run_addValue {v : Value} (hv : ∀ line, v ≠ .text line) (p : Program) :
    (addValue v).run p =
      if p.listing.isSome then .error (.evaluated p.name) p
      else if p.nextNumber ≠ 0 then .error (.line ⟨v.kindName⟩) p
      else .ok () (p.appendStray v) := by
  have h : addValue v = (do
      let p ← get
      if p.listing.isSome then throw (.evaluated p.name)
      if p.nextNumber ≠ 0 then throw (.line ⟨v.kindName⟩)
      modify (Program.appendStray v)) := by
    cases v with
    | text line => exact absurd rfl (hv line)
    | _ => rfl
  rw [h]
  by_cases hl : p.listing.isSome = true
  · simp [hl]
  · by_cases hn : p.nextNumber = 0
    · simp [hl, hn]
    · simp [hl, hn]

section

variable [DigitLimit]

namespace Call

/-- The lines that a call hands over and that are accepted, in order. -/
def accepted (p : Program) : Call → List String
  | add line => if p.listing.isSome then [] else [line]
  | addValue (.text line) => if p.listing.isSome then [] else [line]
  | addValue v => if p.listing.isSome ∨ p.nextNumber ≠ 0 then [] else [v.plain]
  | terminate force => if p.phase = .opened then p.endLines force.isTrue else []
  | eval => p.evalLines
  | assign _ => []
  | c => if p.phase = .opened then ((c.line? p).bind Except.toOption).toList else []

/-- The lines accepted in a history of calls, in order. -/
def acceptedAll : List Call → Program → List String
  | [], _ => []
  | c :: rest, p => c.accepted p ++ acceptedAll rest (c.run p).2

/-! ### One call -/

/-- What a directive of one line does to the buffer. -/
theorem recorded_line {p : Program} (hp : p.Consistent) {c : Call} {r : Except ProgramError String}
    (h : c.line? p = some r) (hd : c.isDirective = true) :
    p.Recorded (if p.phase = .opened then ((c.line? p).bind Except.toOption).toList else []) (c.run p).2 := by
  by_cases ho : p.phase = .opened
  · rw [if_pos ho, h, run_of_open (hp.isOpen ho) h]
    cases r with
    | ok line =>
        have hopen := (hp.isOpen ho).append line
        exact ⟨(Program.Grown.append p line).inMode _, fun _ => hopen.listing⟩
    | error e => exact Program.Recorded.refl hp
  · rw [if_neg ho, run_of_closed (Program.closed_of_not_opened ho) hd]
    exact Program.Recorded.refl hp

theorem recorded_add {p : Program} (hp : p.Consistent) (line : String) :
    p.Recorded (if p.listing.isSome then [] else [line]) ((add line).run p).2 := by
  cases hl : p.listing with
  | some listing =>
      have hsome : p.listing.isSome = true := by rw [hl]; rfl
      rw [run_add_of_evaluated hsome]
      exact Program.Recorded.refl hp
  | none =>
      rw [run_add_of_listing hl]
      exact ⟨Program.Grown.append p line, fun _ => by rw [Program.listing_append, hl]⟩

theorem run_addValue {v : Value} (hv : ∀ line, v ≠ .text line) (p : Program) :
    (addValue v).run p =
      if p.listing.isSome then (.error (.evaluated p.name), p)
      else if p.nextNumber ≠ 0 then (.error (.line ⟨v.kindName⟩), p)
      else (.ok none, p.appendStray v) := by
  rw [run, perform, EStateM.run_bind, Writing.run_addValue hv]
  by_cases hl : p.listing.isSome = true
  · simp only [if_pos hl]
  · by_cases hn : p.nextNumber ≠ 0
    · simp only [if_neg hl, if_pos hn]
    · simp only [if_neg hl, if_neg hn]
      rfl

/-- In the buffer, what is no text stands as its plain text. -/
theorem recorded_addValue {p : Program} (hp : p.Consistent) {v : Value} (hv : ∀ line, v ≠ .text line) :
    p.Recorded (if p.listing.isSome ∨ p.nextNumber ≠ 0 then [] else [v.plain]) ((addValue v).run p).2 := by
  rw [run_addValue hv]
  by_cases hl : p.listing.isSome = true
  · rw [if_pos hl, if_pos (Or.inl hl)]
    exact Program.Recorded.refl hp
  · by_cases hn : p.nextNumber = 0
    · rw [if_neg hl, if_neg (not_not_intro hn), if_neg (not_or.mpr ⟨hl, not_not_intro hn⟩)]
      refine ⟨⟨?_, ?_⟩, hp⟩
      · rw [hn, entries_zero]
        exact Array.toList_push
      · show p.nextNumber = _
        rw [hn]
        rfl
    · rw [if_neg hl, if_pos hn, if_pos (Or.inr hn)]
      exact Program.Recorded.refl hp

end Call

/-! ### The end of a program -/

namespace Program

omit [DigitLimit] in
theorem grown_stopped (p : Program) :
    Grown p [MiscellaneousCode.spindleStop.toWord, MiscellaneousCode.coolantStop.toWord] p.stopped :=
  (Grown.append p _).snoc _

/-- The program after the end, and whether the end was reached. -/
theorem recorded_end {p : Program} (ho : p.IsOpen) (force : Value) :
    match (Writing.terminate force).run p with
    | .ok _ q => p.Recorded (p.endLines force.isTrue) q ∧ q.phase = .closed ∧ q.listing = none
      ∧ (force.isTrue = false → ∃ line, p.millMotion p.clearance = .ok line)
    | .error _ q => p.Recorded (p.endLines force.isTrue) q
      ∧ (force.isTrue = false → ∃ e, p.millMotion p.clearance = .error e) := by
  cases hf : force.isTrue with
  | true =>
      rw [Writing.run_terminate_of_forced ho hf]
      have hgrown := (Grown.append p MiscellaneousCode.forcedStop.toWord).ended force
      exact ⟨⟨hgrown, consistent_of_closed rfl⟩, rfl, (ho.append _).listing, fun h => by cases h⟩
  | false =>
      rw [Writing.run_terminate_of_unforced ho hf, endLines]
      cases hm : p.millMotion p.clearance with
      | ok line =>
          have hgrown := (((grown_stopped p).snoc line).snoc MiscellaneousCode.programEnd.toWord).ended force
          have hlisting := ((ho.stopped.append line).append MiscellaneousCode.programEnd.toWord).listing
          rw [← listing_ended force] at hlisting
          exact ⟨⟨hgrown, consistent_of_closed (phase_ended force _)⟩, phase_ended force _, hlisting,
            fun _ => ⟨line, rfl⟩⟩
      | error e => exact ⟨⟨grown_stopped p, ho.stopped.consistent⟩, fun _ => ⟨e, rfl⟩⟩

/-- Closing the listing adds the marker, whether or not the listing comes about. -/
theorem recorded_conclude {p : Program} (hc : p.phase = .closed) (hl : p.listing = none) :
    p.Recorded [openMarker] (Writing.left (Writing.eval.run p)) := by
  have hclosed : (p.append openMarker).phase = .closed := by rw [phase_append, hc]
  rw [Writing.run_eval_of_closed hl hc, conclude]
  cases (p.append openMarker).strays[0]? with
  | some stray => exact ⟨Grown.append p _, consistent_of_closed hclosed⟩
  | none => exact ⟨(Grown.append p _).congr rfl rfl, consistent_of_closed hclosed⟩

end Program

namespace Call

theorem snd_run (c : Call) (p : Program) : (c.run p).2 = Writing.left (c.perform.run p) := by
  rw [run]
  cases c.perform.run p with
  | ok answer q => rfl
  | error e q => rfl

theorem recorded_terminate {p : Program} (hp : p.Consistent) (force : Value) :
    p.Recorded (if p.phase = .opened then p.endLines force.isTrue else []) ((terminate force).run p).2 := by
  by_cases ho : p.phase = .opened
  · have hend := Program.recorded_end (hp.isOpen ho) force
    rw [if_pos ho, snd_run, perform, Writing.left_map]
    revert hend
    cases (Writing.terminate force).run p with
    | ok _ q => exact fun hend => hend.1
    | error e q => exact fun hend => hend.1
  · rw [if_neg ho, run_of_closed (Program.closed_of_not_opened ho) rfl]
    exact Program.Recorded.refl hp

theorem recorded_eval {p : Program} (hp : p.Consistent) : p.Recorded p.evalLines (eval.run p).2 := by
  rw [snd_run, perform, Writing.left_map, Program.evalLines]
  cases hl : p.listing with
  | some listing =>
      rw [Writing.run_eval_of_listing hl]
      exact Program.Recorded.refl hp
  | none =>
      by_cases ho : p.phase = .opened
      · have hend := Program.recorded_end (hp.isOpen ho) (.bool false)
        rw [Option.isSome_none, if_neg Bool.false_ne_true, if_pos ho, Writing.run_eval_of_open (hp.isOpen ho), EStateM.run_bind]
        revert hend
        cases (Writing.terminate (.bool false)).run p with
        | error e q =>
            rintro ⟨hend, hfail⟩
            obtain ⟨e', he⟩ := hfail rfl
            rw [he, List.append_nil]
            exact hend
        | ok _ q =>
            rintro ⟨hend, hclosed, hlisting, hraised⟩
            obtain ⟨line, hline⟩ := hraised rfl
            rw [hline]
            exact hend.trans (Program.recorded_conclude hclosed hlisting)
      · rw [Option.isSome_none, if_neg Bool.false_ne_true, if_neg ho]
        exact Program.recorded_conclude (Program.closed_of_not_opened ho) hl

/-- Every call grows the buffer by the entries of the lines it got accepted. -/
theorem recorded_run {p : Program} (hp : p.Consistent) (c : Call) : p.Recorded (c.accepted p) (c.run p).2 := by
  cases c with
  | setMode given => exact recorded_line hp rfl rfl
  | rapidMove position feed => exact recorded_line hp rfl rfl
  | linearMove position feed => exact recorded_line hp rfl rfl
  | dropMill depth => exact recorded_line hp rfl rfl
  | raiseMill depth => exact recorded_line hp rfl rfl
  | startSpindle clockwise => exact recorded_line hp rfl rfl
  | stopSpindle => exact recorded_line hp rfl rfl
  | startCoolant flood => exact recorded_line hp rfl rfl
  | stopCoolant => exact recorded_line hp rfl rfl
  | terminate force => exact recorded_terminate hp force
  | add line => exact recorded_add hp line
  | addValue given =>
      cases given with
      | text line => exact recorded_add hp line
      | _ => exact recorded_addValue hp (by simp)
  | eval => exact recorded_eval hp
  | assign a => cases a <;> exact ⟨(Program.Grown.refl p).congr rfl rfl, hp⟩

/-! ### A history of calls -/

theorem recorded_runAll {p : Program} (hp : p.Consistent) (calls : List Call) :
    p.Recorded (acceptedAll calls p) (runAll calls p) := by
  induction calls generalizing p with
  | nil => exact Program.Recorded.refl hp
  | cons c rest ih =>
      have hstep := recorded_run hp c
      exact hstep.trans (ih hstep.consistent)

theorem runAll_append (pre post : List Call) (p : Program) :
    runAll (pre ++ post) p = runAll post (runAll pre p) := by
  rw [runAll, List.foldl_append]
  rfl

/-- What was in the buffer stays in front of what comes later. -/
theorem lines_runAll_prefix {p : Program} (hp : p.Consistent) (pre post : List Call) :
    (runAll pre p).lines.toList <+: (runAll (pre ++ post) p).lines.toList := by
  have hpre := recorded_runAll hp pre
  have hpost := recorded_runAll hpre.consistent post
  rw [runAll_append, hpost.lines]
  exact List.prefix_append _ _

end Call

/-! ### Programs that were opened -/

/-- The buffer of the program is the lines `raw` in order, as a program with or without
numbers keeps them, and the number of the next line is one more than the numbered lines
there are. -/
structure Program.Keeps (numbered : Bool) (raw : List String) (p : Program) : Prop where
  /-- A line with a number has as its number its place among the lines that carry one. -/
  entry : ∀ i : Nat, p.lines[i]? = raw[i]?.map fun line =>
    if numbered = true ∧ isNumbered line = true then
      lineNumberWord ((1 + (raw.take i).countP isNumbered : Nat) : Int) ++ " " ++ line
    else line
  nextNumber : p.nextNumber = if numbered then 1 + raw.countP isNumbered else 0
  /-- The number words count up from one. -/
  words : numbered = true → p.lines.toList.filterMap wordOf
    = (List.range (raw.countP isNumbered)).map fun k => lineNumberWord ((1 + k : Nat) : Int)
  /-- No number word is used twice. -/
  distinct : numbered = true → (p.lines.toList.filterMap wordOf).Nodup
  /-- The lines can be read off the buffer. -/
  recovered : numbered = true → p.lines.toList.map lineOf = raw
  verbatim : numbered = false → p.lines.toList = raw

omit [DigitLimit] in
theorem Program.keeps_of_entries {p : Program} {numbered : Bool} {raw : List String}
    (hl : p.lines.toList = entries (if numbered then 1 else 0) raw)
    (hn : p.nextNumber = numberAfter (if numbered then 1 else 0) raw) : p.Keeps numbered raw := by
  have hcount : numberAfter (if numbered then 1 else 0) raw = if numbered then 1 + raw.countP isNumbered else 0 := by
    cases numbered <;> rfl
  have hwords : numbered = true → p.lines.toList.filterMap wordOf
      = (List.range (raw.countP isNumbered)).map fun k => lineNumberWord ((1 + k : Nat) : Int) := by
    rintro rfl
    rw [hl]
    exact filterMap_wordOf_entries (by decide) raw
  refine ⟨?_, by rw [hn, hcount], hwords, ?_, ?_, ?_⟩
  · intro i
    rw [← Array.getElem?_toList, hl, getElem?_entries]
    congr 1
    funext line
    cases numbered with
    | false => exact if_neg fun h => h.1 rfl
    | true =>
        have hnum : numberAfter 1 (raw.take i) = 1 + (raw.take i).countP isNumbered := rfl
        rw [if_pos rfl, hnum, entry]
        by_cases hline : isNumbered line = true
        · rw [if_pos ⟨by omega, hline⟩, if_pos ⟨rfl, hline⟩]
        · rw [if_neg fun h => hline h.2, if_neg fun h => hline h.2]
  · intro h
    rw [hwords h]
    refine List.pairwise_map.mpr (List.nodup_range.imp ?_)
    intro a b hne hab
    have := lineNumberWord_injective hab
    omega
  · rintro rfl
    rw [hl]
    exact map_lineOf_entries (by decide) raw
  · rintro rfl
    rw [hl]
    exact entries_zero raw

namespace Call

/-- **A program keeps what it accepts.**  After any history of calls on a new program the
buffer is the lines of the opening and then the accepted ones, and every earlier buffer is
the front of it. -/
theorem runAll_keeps {c : Config} {names : NameSource} {p : Program} (h : (Program.openNext c names).1 = .ok p)
    (calls : List Call) :
    (runAll calls p).Keeps c.lineNumbering (c.headLines (c.nextName names).1 ++ acceptedAll calls p)
    ∧ ∀ pre post, calls = pre ++ post → (runAll pre p).lines.toList <+: (runAll calls p).lines.toList := by
  obtain rfl := Program.opened_of_openNext h
  have hopen := Program.isOpen_opened c (c.nextName names).1
  have hgrown := (Program.grown_opened c (c.nextName names).1).trans
    (recorded_runAll hopen.consistent calls).toGrown
  refine ⟨Program.keeps_of_entries ?_ hgrown.nextNumber, ?_⟩
  · rw [hgrown.lines]
    rfl
  · rintro pre post rfl
    exact lines_runAll_prefix hopen.consistent pre post

end Call

end

namespace Call

/-- A comment, a motion, a forced end, a line behind it, and what is refused after the
evaluation. -/
theorem runAll_keeps_of_named :
    let c : Config := { Config.standard with name := some "7" }
    let p := Program.opened c "7"
    let calls : List Call := [.add "% setup", .linearMove (.tuple [.int 1]) .null, .terminate (.bool true), .add "M99",
      .stopSpindle, .eval, .add "M99"]
    (Program.openNext c .standard).1 = .ok p
    ∧ ((runAll calls p).Keeps true (c.headLines "7" ++ acceptedAll calls p)
      ∧ ∀ pre post, calls = pre ++ post → (runAll pre p).lines.toList <+: (runAll calls p).lines.toList) := by
  intro c p calls
  have h : (Program.openNext c .standard).1 = .ok p :=
    Program.openNext_of_isFinite rfl (by decide +kernel) (by decide +kernel)
  exact ⟨h, runAll_keeps h calls⟩

end Call

end PartProgram
