/-
What calls other than plain lines do to a program.

There are four things that such a call can do: nothing, a line to the body of an open
program, the whole end, and the marker behind a closed one.  An end that fails half way is
two lines of the body, and an evaluation of an open program is an end and a marker.  `Moves`
says so once, with the lines that are added, and a history of calls is a history of moves;
what holds of every program that nobody added plain lines to is then read off the moves, and
no call is looked at again.
-/
import PartProgram.Proofs.Unnumbered

namespace PartProgram

/-! ### Lines and what they are for

What a line is for shows in its first characters: directives begin with the letters of their
codes, the title and the marker with two others.  So a line of the body is neither, and among
those of directives only two codes end a program and two switch its mode.
-/

/-- Whether a line is one of the codes that end a program. -/
def isEndCode (line : String) : Bool := line == "M00" || line == "M30"

/-- The distance mode that a line switches to. -/
def modeOf? (line : String) : Option DistanceMode :=
  if line = "G90" then some .absolute else if line = "G91" then some .relative else none

/-- A line between the title and the end of a program. -/
inductive IsInner : String → Prop where
  | code (c : PreparatoryCode) : IsInner c.toWord
  | motion (factor : Nat) (m : Motion) : IsInner (m.text factor)
  | switch (c : MiscellaneousCode) (h : isEndCode c.toWord = false) : IsInner c.toWord

theorem PreparatoryCode.head?_append (code : PreparatoryCode) (rest : String) :
    (code.toWord ++ rest).toList.head? = some 'G' := by
  rw [toWord, String.toList_append, String.toList_append]
  rfl

theorem Motion.head?_text (factor : Nat) (m : Motion) : (m.text factor).toList.head? = some 'G' := by
  simp only [text, String.append_assoc]
  exact m.code.head?_append _

theorem isEndCode_of_head? {line : String} {c : Char} (h : line.toList.head? = some c) (hc : c ≠ 'M') :
    isEndCode line = false := by
  have hne {code : String} (hcode : code.toList.head? = some 'M') : line ≠ code := by
    rintro rfl
    exact hc (Option.some.inj (h.symm.trans hcode))
  rw [isEndCode, Bool.or_eq_false_iff, beq_eq_false_iff_ne, beq_eq_false_iff_ne]
  exact ⟨hne rfl, hne rfl⟩

theorem head?_title (name : String) : (nameLetter ++ name).toList.head? = some 'O' := by
  rw [String.toList_append]
  rfl

/-- A motion switches no mode: its line is longer than its code. -/
theorem Motion.modeOf?_text (factor : Nat) (m : Motion) : modeOf? (m.text factor) = none := by
  have hspace : ' ' ∈ (m.text factor).toList := by
    simp [text, wordText]
  have hne {code : String} (h : ' ' ∉ code.toList) : m.text factor ≠ code := by
    intro heq
    exact h (heq ▸ hspace)
  rw [modeOf?, if_neg (hne (by decide)), if_neg (hne (by decide))]

theorem MiscellaneousCode.modeOf?_toWord (c : MiscellaneousCode) : modeOf? c.toWord = none := by
  cases c <;> rfl

theorem DistanceMode.modeOf?_code (m : DistanceMode) : modeOf? m.code.toWord = some m := by
  cases m <;> rfl

namespace IsInner

variable {line : String}

theorem isUnnumbered (h : IsInner line) : isUnnumbered line = false := by
  cases h with
  | code c => exact c.isUnnumbered_toWord
  | motion factor m => exact m.isUnnumbered_text factor
  | switch c _ => exact c.isUnnumbered_toWord

theorem isEndCode (h : IsInner line) : isEndCode line = false := by
  cases h with
  | code c => cases c <;> rfl
  | motion factor m => exact isEndCode_of_head? (m.head?_text factor) (by decide)
  | switch c hc => exact hc

end IsInner

/-! ### The lines of directives

An assignment may leave a unit that is no text, and then a motion is either refused or written
with numbers as they are.  A motion that was written is in every case the text of a motion under
some factor, and that is all that the layout has to know of it.
-/

variable [DigitLimit]

omit [DigitLimit] in
/-- What is computed item by item is known where each of the items is. -/
theorem map_of_mapM {α β ε : Type} {f : α → Except ε β} {g : α → β} (h : ∀ a b, f a = .ok b → b = g a) {l : List α}
    {results : List β} (hl : l.mapM f = .ok results) : results = l.map g := by
  induction l generalizing results with
  | nil => exact (Except.ok.inj hl).symm
  | cons a rest ih =>
      rw [List.mapM_cons] at hl
      obtain ⟨b, hb, hrest⟩ := bind_eq_ok.mp hl
      obtain ⟨bs, hbs, hall⟩ := bind_eq_ok.mp hrest
      rw [← Except.ok.inj hall, h a b hb, ih hbs]
      rfl

omit [DigitLimit] in
/-- Only a text multiplies by anything but one. -/
theorem LengthUnit.factorFor_of_not_text {unit : Value} (hunit : ∀ u, unit ≠ .text u) {v : Value} {factor : Nat}
    (h : factorFor unit v = .ok factor) : factor = 1 := by
  have hlookup : lookup? unit = unit.checkKey.map fun _ => none := by
    cases unit with
    | text u => exact absurd rfl (hunit u)
    | _ => rfl
  unfold factorFor at h
  split at h
  · rw [factorOf, hlookup] at h
    cases hkey : unit.checkKey with
    | error e => rw [hkey] at h; cases h
    | ok _ => rw [hkey] at h; exact (Except.ok.inj h).symm
  · exact (Except.ok.inj h).symm

namespace Program

variable {p q : Program}

/-- What a program multiplies its numbers by: the factor of its unit, and one where the unit
is no text. -/
def factor (p : Program) : Nat :=
  match p.unit with
  | .text u => LengthUnit.factor u
  | _ => 1

/-- The motion up to the clearance of the program. -/
def raise (p : Program) : Motion := ⟨.rapid, ⟨.null, .null, p.clearance⟩, p.feedrate⟩

/-- The word of a number, where it comes about. -/
theorem numberWordIn_eq_ok {letter : String} {v : Value} {word : String}
    (h : numberWordIn p.unit letter v = .ok word) : word = numberWord letter p.factor v := by
  by_cases htext : ∃ u, p.unit = .text u
  · obtain ⟨u, hu⟩ := htext
    rw [hu, numberWordIn_text] at h
    obtain ⟨_, -, hword⟩ := map_eq_ok.mp h
    rw [← hword, factor, hu]
  · have hunit : ∀ u, p.unit ≠ .text u := fun u hu => htext ⟨u, hu⟩
    have hfactor : p.factor = 1 := by
      unfold factor
      split
      · rename_i u hu
        exact absurd hu (hunit u)
      · rfl
    obtain ⟨f, hf, hrest⟩ := bind_eq_ok.mp h
    have hone := LengthUnit.factorFor_of_not_text hunit (mapError_eq_ok.mp hf)
    rw [hone] at hrest
    obtain ⟨_, -, hword⟩ := bind_eq_ok.mp hrest
    rw [hfactor]
    exact (Except.ok.inj hword).symm

theorem motionLineIn_eq_ok {code : PreparatoryCode} {target : Position} {feed : Value} {line : String}
    (h : motionLineIn code p.unit target feed = .ok line) : line = Motion.text p.factor ⟨code, target, feed⟩ := by
  obtain ⟨axes, haxes, hrest⟩ := bind_eq_ok.mp h
  obtain ⟨word, hfeed, hline⟩ := bind_eq_ok.mp hrest
  have haxes : axes = target.axisWords p.factor := map_of_mapM (fun _ _ => numberWordIn_eq_ok) haxes
  have hfeed : word = feedWord p.factor feed := numberWordIn_eq_ok hfeed
  rw [← Motion.line_eq_text, Motion.line, motionLine, ← haxes, ← hfeed]
  exact (Except.ok.inj hline).symm

/-- The line of a motion, where it comes about. -/
theorem motion_eq_ok {code : PreparatoryCode} {target : Position} {feed : Value} {line : String}
    (h : p.motion code target feed = .ok line) : line = Motion.text p.factor ⟨code, target, p.feedOf feed⟩ := by
  obtain ⟨_, -, h⟩ := bind_eq_ok.mp h
  obtain ⟨_, -, h⟩ := bind_eq_ok.mp h
  exact motionLineIn_eq_ok (mapError_eq_ok.mp h)

/-- The line that raises the mill. -/
theorem millMotion_eq_ok {line : String} (h : p.millMotion p.clearance = .ok line) : line = p.raise.text p.factor := by
  have hraise : p.raise = ⟨.rapid, ⟨.null, .null, p.clearance⟩, p.feedOf .null⟩ := rfl
  rw [hraise]
  exact motion_eq_ok h

end Program

namespace Call

variable {p : Program} {c : Call}

/-- A move that goes through has added the line of its motion. -/
theorem append_of_move {q : Program} {code : PreparatoryCode} {position feed : Value} {target : Position}
    (hc : c.perform = do Writing.move code position feed; return none)
    (hposition : Position.ofValue? position = .ok target) {answer : Option String} (hrun : c.run p = (.ok answer, q)) :
    q = p.append (Motion.text p.factor ⟨code, target, p.feedOf feed⟩) := by
  have hphase : p.phase = .opened := by
    cases hp : p.phase with
    | opened => rfl
    | closed =>
        rw [run_eq_refused hc (Writing.run_of_closed hp _)] at hrun
        cases hrun
  obtain ⟨line, hline, -, rfl⟩ :=
    exists_line_of_run hc (Writing.run_move_of_opened hphase code position feed) hrun
  simp only [Program.motionTo, hposition] at hline
  rw [Program.motion_eq_ok hline]

/-- A directive of one line asks for a line of the body, which switches the mode where the
directive does. -/
theorem isInner_line {line : String} (h : c.line? p = some (.ok line)) :
    IsInner line ∧ (modeOf? line).getD p.mode = c.modeAfter p := by
  have hmotion {code : PreparatoryCode} {target : Position} {feed : Value}
      (hm : p.motion code target feed = .ok line) : IsInner line ∧ (modeOf? line).getD p.mode = p.mode := by
    rw [Program.motion_eq_ok hm, Motion.modeOf?_text]
    exact ⟨.motion _ _, rfl⟩
  have hmove {code : PreparatoryCode} {position feed : Value} (hm : p.motionTo code position feed = .ok line) :
      IsInner line ∧ (modeOf? line).getD p.mode = p.mode := by
    unfold Program.motionTo at hm
    cases hposition : Position.ofValue? position with
    | error e => rw [hposition] at hm; cases hm
    | ok target => rw [hposition] at hm; exact hmotion hm
  have hswitch {code : MiscellaneousCode} (hcode : isEndCode code.toWord = false) (hw : line = code.toWord) :
      IsInner line ∧ (modeOf? line).getD p.mode = p.mode := by
    rw [hw, code.modeOf?_toWord]
    exact ⟨.switch code hcode, rfl⟩
  have hword {w : String} (hw : some (Except.ok w : Except ProgramError String) = some (.ok line)) : line = w :=
    (Except.ok.inj (Option.some.inj hw)).symm
  cases c with
  | setMode given =>
      have hmode := Option.some.inj h
      cases hgiven : DistanceMode.ofValue? given with
      | error e => rw [hgiven] at hmode; cases hmode
      | ok m =>
          rw [hgiven] at hmode
          obtain rfl := Except.ok.inj hmode
          rw [m.modeOf?_code, modeAfter, hgiven]
          exact ⟨.code m.code, rfl⟩
  | rapidMove position feed => exact hmove (Option.some.inj h)
  | linearMove position feed => exact hmove (Option.some.inj h)
  | dropMill depth => exact hmotion (Option.some.inj h)
  | raiseMill depth => exact hmotion (Option.some.inj h)
  | startSpindle clockwise => exact hswitch (by cases clockwise.isTrue <;> rfl) (hword h)
  | stopSpindle => exact hswitch rfl (hword h)
  | startCoolant flood => exact hswitch (by cases flood.isTrue <;> rfl) (hword h)
  | stopCoolant => exact hswitch rfl (hword h)
  | _ => cases h

end Call

/-! ### What a call can do

The moves leave open what raises the mill and whether modes are assigned, since this depends on
the history: without assignments it is one line all along, with them one for every clearance
that was there at some time.  The two are parameters, and a history decides what they are.
-/

namespace Program

/-- The lines of the end of a program: what stands in front of the code, and the code. -/
inductive IsEnd (IsRaise : String → Prop) : List String → String → Prop where
  | forced : IsEnd IsRaise [] "M00"
  | ended (factor : Nat) (m : Motion) (h : IsRaise (m.text factor)) :
      IsEnd IsRaise ["M05", "M09", m.text factor] "M30"

/-- What calls other than plain lines do to a program, and the lines that they add.  The end of
a program raises the mill by a line of which `IsRaise` holds, and only where modes are
`Assigned` does the mode change without a line. -/
inductive Moves (IsRaise : String → Prop) (Assigned : Prop) : Program → List String → Program → Prop where
  /-- Nothing is added. -/
  | kept {p q : Program} (hphase : q.phase = p.phase) (hlisting : q.listing = p.listing)
      (hstrays : q.strays = p.strays) (hmode : Assigned ∨ q.mode = p.mode) : Moves IsRaise Assigned p [] q
  /-- A line is added to the body. -/
  | line {p q : Program} {line : String} (hp : p.IsOpen) (hq : q.IsOpen) (hstrays : q.strays = p.strays)
      (hinner : IsInner line) (hmode : q.mode = (modeOf? line).getD p.mode) : Moves IsRaise Assigned p [line] q
  /-- The program is ended. -/
  | ended {p q : Program} {front : List String} {code : String} (hp : p.IsOpen) (hphase : q.phase = .closed)
      (hlisting : q.listing = none) (hstrays : q.strays = p.strays) (hmode : q.mode = p.mode)
      (hend : IsEnd IsRaise front code) : Moves IsRaise Assigned p (front ++ [code]) q
  /-- The listing is closed. -/
  | evaluated {p q : Program} (hp : p.phase = .closed) (hl : p.listing = none) (hphase : q.phase = .closed)
      (hlisting : q.listing.isSome = true) (hstrays : q.strays = p.strays) (hmode : q.mode = p.mode) :
      Moves IsRaise Assigned p [openMarker] q
  | trans {p q r : Program} {a b : List String} (h : Moves IsRaise Assigned p a q) (h' : Moves IsRaise Assigned q b r) :
      Moves IsRaise Assigned p (a ++ b) r

variable {IsRaise : String → Prop} {Assigned : Prop} {p q : Program} {raw : List String}

omit [DigitLimit] in
theorem Moves.refl (p : Program) : Moves IsRaise Assigned p [] p := .kept rfl rfl rfl (Or.inr rfl)

omit [DigitLimit] in
/-- Only lines are added. -/
theorem Moves.strays (h : Moves IsRaise Assigned p raw q) : q.strays = p.strays := by
  induction h with
  | kept _ _ hstrays _ => exact hstrays
  | line _ _ hstrays _ _ => exact hstrays
  | ended _ _ _ hstrays _ _ => exact hstrays
  | evaluated _ _ _ _ hstrays _ => exact hstrays
  | trans _ _ ih ih' => exact ih'.trans ih

/-! ### The end and the evaluation -/

omit [DigitLimit] in
@[simp]
theorem mode_append (line : String) (p : Program) : (p.append line).mode = p.mode := by
  rw [append_eq]

@[simp]
theorem mode_note (told : List Value) (message : String) (p : Program) : (p.note told message).mode = p.mode := rfl

omit [DigitLimit] in
@[simp]
theorem mode_inMode (m : DistanceMode) (p : Program) : (p.inMode m).mode = m := rfl

omit [DigitLimit] in
theorem IsOpen.moves_append (ho : p.IsOpen) {line : String} (hinner : IsInner line) (hmode : modeOf? line = none) :
    Moves IsRaise Assigned p [line] (p.append line) :=
  .line ho (ho.append line) (strays_append line p) hinner (by rw [mode_append, hmode, Option.getD_none])

theorem IsOpen.moves_ended (ho : p.IsOpen) (hq : q.IsOpen) (hstrays : q.strays = p.strays) (hmode : q.mode = p.mode)
    {front : List String} {code : String} (hend : IsEnd IsRaise front code) (force : Value) :
    Moves IsRaise Assigned p (front ++ [code]) (q.ended force) :=
  .ended ho (phase_ended force q) ((listing_ended force q).trans hq.listing) hstrays hmode hend

/-- Where the mill cannot be raised, the end of a program is two lines of its body. -/
theorem IsOpen.moves_end (ho : p.IsOpen) (hraise : ∀ up, p.millMotion p.clearance = .ok up → IsRaise up)
    (force : Value) :
    Moves IsRaise Assigned p (p.endLines force.isTrue) (Writing.left ((Writing.terminate force).run p)) := by
  cases hf : force.isTrue with
  | true =>
      rw [Writing.run_terminate_of_forced ho hf]
      exact ho.moves_ended (ho.append _) (strays_append _ p) (mode_append _ p) .forced force
  | false =>
      rw [Writing.run_terminate_of_unforced ho hf, endLines]
      cases hm : p.millMotion p.clearance with
      | ok line =>
          have hopen := (ho.stopped.append line).append MiscellaneousCode.programEnd.toWord
          have hstrays : ((p.stopped.append line).append MiscellaneousCode.programEnd.toWord).strays = p.strays := by
            simp [Program.stopped]
          have hmode : ((p.stopped.append line).append MiscellaneousCode.programEnd.toWord).mode = p.mode := by
            simp [Program.stopped]
          have hend : IsEnd IsRaise ["M05", "M09", line] "M30" := by
            have hup := hraise line hm
            rw [millMotion_eq_ok hm] at hup ⊢
            exact .ended _ _ hup
          exact ho.moves_ended hopen hstrays hmode hend force
      | error e =>
          exact (ho.moves_append (.switch .spindleStop rfl) rfl).trans
            ((ho.append _).moves_append (.switch .coolantStop rfl) rfl)

theorem moves_marker (hc : p.phase = .closed) (hl : p.listing = none) (hs : p.strays = #[]) :
    Moves IsRaise Assigned p [openMarker] (Writing.left (Writing.eval.run p)) := by
  have hstray : (p.append openMarker).strays[0]? = none := by
    rw [strays_append, hs]
    rfl
  have hclosed : (p.append openMarker).phase = .closed := by rw [phase_append, hc]
  rw [Writing.run_eval_of_closed hl hc, conclude, hstray]
  exact .evaluated hc hl hclosed rfl (strays_append _ p) (mode_append _ p)

end Program

open Program (Moves IsEnd)

namespace Call

variable {IsRaise : String → Prop} {Assigned : Prop} {p : Program} {c : Call}

/-- A directive of one line adds a line of the body, or nothing. -/
theorem moves_line (hp : p.Consistent) {r : Except ProgramError String} (h : c.line? p = some r)
    (hd : c.isDirective = true) : Moves IsRaise Assigned p
      (if p.phase = .opened then ((c.line? p).bind Except.toOption).toList else []) (c.run p).2 := by
  by_cases ho : p.phase = .opened
  · rw [if_pos ho, run_of_open (hp.isOpen ho) h, h]
    cases r with
    | error e => exact Moves.refl p
    | ok line =>
        obtain ⟨hinner, hmode⟩ := isInner_line h
        have hopen := (hp.isOpen ho).append line
        exact .line (hp.isOpen ho) ⟨hopen.phase, hopen.listing⟩ (Program.strays_append line p) hinner hmode.symm
  · rw [if_neg ho, run_of_closed (Program.closed_of_not_opened ho) hd]
    exact Moves.refl p

theorem moves_terminate (hp : p.Consistent)
    (hraise : p.phase = .opened → ∀ up, p.millMotion p.clearance = .ok up → IsRaise up) (force : Value) :
    Moves IsRaise Assigned p (if p.phase = .opened then p.endLines force.isTrue else [])
      ((terminate force).run p).2 := by
  by_cases ho : p.phase = .opened
  · rw [if_pos ho, snd_run, perform, Writing.left_map]
    exact (hp.isOpen ho).moves_end (hraise ho) force
  · rw [if_neg ho, run_of_closed (Program.closed_of_not_opened ho) rfl]
    exact Moves.refl p

theorem moves_eval (hp : p.Consistent) (hs : p.strays = #[])
    (hraise : p.phase = .opened → ∀ up, p.millMotion p.clearance = .ok up → IsRaise up) :
    Moves IsRaise Assigned p p.evalLines (eval.run p).2 := by
  rw [snd_run, perform, Writing.left_map, Program.evalLines]
  cases hl : p.listing with
  | some listing =>
      rw [Writing.run_eval_of_listing hl]
      exact Moves.refl p
  | none =>
      rw [Option.isSome_none, if_neg Bool.false_ne_true]
      by_cases ho : p.phase = .opened
      · -- The end comes first, and the marker where the end went through.
        have hend : Moves IsRaise Assigned p (p.endLines false)
            (Writing.left ((Writing.terminate (.bool false)).run p)) :=
          (hp.isOpen ho).moves_end (hraise ho) (.bool false)
        have hreached := Program.recorded_end (hp.isOpen ho) (.bool false)
        rw [if_pos ho, Writing.run_eval_of_open (hp.isOpen ho), EStateM.run_bind]
        revert hend hreached
        cases (Writing.terminate (.bool false)).run p with
        | error e q =>
            rintro hend ⟨-, hfail⟩
            obtain ⟨e', he⟩ := hfail rfl
            rw [he, List.append_nil]
            exact hend
        | ok _ q =>
            rintro hend ⟨-, hclosed, hlisting, hraised⟩
            obtain ⟨line, hline⟩ := hraised rfl
            rw [hline]
            exact hend.trans (Program.moves_marker hclosed hlisting (hend.strays.trans hs))
      · rw [if_neg ho]
        exact Program.moves_marker (Program.closed_of_not_opened ho) hl hs

/-- **What a call can do.**  Every call but a plain line is one of the moves. -/
theorem moves_run (hc : c.isAddition = false) (hp : p.Consistent) (hs : p.strays = #[])
    (hraise : p.phase = .opened → ∀ up, p.millMotion p.clearance = .ok up → IsRaise up)
    (hmode : ∀ m, c = .assign (.mode m) → Assigned) : Moves IsRaise Assigned p (c.accepted p) (c.run p).2 := by
  cases c with
  | setMode given => exact moves_line hp rfl rfl
  | rapidMove position feed => exact moves_line hp rfl rfl
  | linearMove position feed => exact moves_line hp rfl rfl
  | dropMill depth => exact moves_line hp rfl rfl
  | raiseMill depth => exact moves_line hp rfl rfl
  | startSpindle clockwise => exact moves_line hp rfl rfl
  | stopSpindle => exact moves_line hp rfl rfl
  | startCoolant flood => exact moves_line hp rfl rfl
  | stopCoolant => exact moves_line hp rfl rfl
  | terminate force => exact moves_terminate hp hraise force
  | add line => cases hc
  | addValue given => cases hc
  | eval => exact moves_eval hp hs hraise
  | assign a =>
      cases a with
      | mode m => exact .kept rfl rfl rfl (Or.inl (hmode m rfl))
      | _ => exact .kept rfl rfl rfl (Or.inr rfl)

/-- A history of calls is a history of moves. -/
theorem moves_runAll {calls : List Call} (hc : ∀ d ∈ calls, d.isAddition = false) (hp : p.Consistent)
    (hs : p.strays = #[])
    (hraise : ∀ pre post, calls = pre ++ post → (runAll pre p).phase = .opened →
      ∀ up, (runAll pre p).millMotion (runAll pre p).clearance = .ok up → IsRaise up)
    (hmode : ∀ m, .assign (.mode m) ∈ calls → Assigned) :
    Moves IsRaise Assigned p (acceptedAll calls p) (runAll calls p) := by
  induction calls generalizing p with
  | nil => exact Moves.refl p
  | cons c rest ih =>
      have hstep : Moves IsRaise Assigned p (c.accepted p) (c.run p).2 :=
        moves_run (hc c List.mem_cons_self) hp hs (hraise [] (c :: rest) rfl) fun m hm =>
          hmode m (hm ▸ List.mem_cons_self)
      have hrest := ih (fun d hd => hc d (List.mem_cons_of_mem c hd)) (recorded_run hp c).consistent
        (hstep.strays.trans hs) (fun pre post hsplit => hraise (c :: pre) post (congrArg (c :: ·) hsplit))
        fun m hm => hmode m (List.mem_cons_of_mem c hm)
      exact hstep.trans hrest

end Call

end PartProgram
