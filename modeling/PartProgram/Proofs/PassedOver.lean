/-
What cannot be carried out leaves no trace but its warning.

An operation that no program can carry out adds a note and does nothing else, and a call does not
look at what was said before it.  So the two histories that are compared here, of a list of
operations and of the list without those that are passed over, go through programs that are the
same but for their notes, and whatever the one meets on its way, a fault, an end, a listing, the
other meets as well.

`speaks` is the fact about calls: what a call gives it gives whatever the notes are, and what it
adds to them are its own, none of them a warning.  `Hears` is what the second program has over the
first, and the induction over the operations carries it along, through the end of the program
and behind it.
-/
import PartProgram.Proofs.Abreast

namespace PartProgram

section

variable [DigitLimit]

/-- Whether a note is a warning. -/
def Note.isWarning (n : Note) : Bool := decide (n.severity = .warning)

omit [DigitLimit] in
theorem Note.isWarning_of_debug {n : Note} (h : n.severity = .debug) : n.isWarning = false := by
  rw [isWarning, h]
  rfl

/-! ### Calls do not look at notes

No rule for calls has the notes among its conditions, so with other notes the same rule applies.
What it adds to them is the same as well; for what it says of an end or an opening it depends on
whether the values that are told can be written, and these are no notes.
-/

namespace Program

/-- The program with other notes. -/
def noted (notes : Array Note) (p : Program) : Program := { p with notes }

section

omit [DigitLimit]

theorem noted_notes (p : Program) : p.noted p.notes = p := rfl

theorem noted_append (notes : Array Note) (line : String) (p : Program) :
    (p.append line).noted notes = (p.noted notes).append line := by
  rw [append_eq, append_eq]
  rfl

@[simp]
theorem notes_append (line : String) (p : Program) : (p.append line).notes = p.notes := by
  rw [append_eq]

@[simp]
theorem notes_stopped (p : Program) : p.stopped.notes = p.notes := by
  rw [stopped, notes_append, notes_append]

end

theorem notes_note_congr {p q : Program} (h : q.notes = p.notes) {told : List Value} {message : String} :
    (q.note told message).notes = (p.note told message).notes := by
  rw [note, note, h]

omit [DigitLimit] in
theorem noted_stopped (notes : Array Note) (p : Program) : p.stopped.noted notes = (p.noted notes).stopped := by
  rw [stopped, noted_append, noted_append]
  rfl

omit [DigitLimit] in
theorem isOpen_noted {p : Program} (ho : p.IsOpen) (notes : Array Note) : (p.noted notes).IsOpen :=
  ⟨ho.phase, ho.listing⟩

end Program

namespace Call

/-- The call gives this whatever was said before, and what it says itself is no warning. -/
def Speaks (d : Call) (p : Program) (answer : Except ProgramError (Option String)) (q : Program) : Prop :=
  ∃ said : Array Note, (∀ n ∈ said, n.severity = .debug) ∧ q.notes = p.notes ++ said
    ∧ ∀ notes, d.Gives (p.noted notes) answer (q.noted (notes ++ said))

variable {d : Call} {p q : Program} {answer : Except ProgramError (Option String)}

theorem speaks_of_silence (hn : q.notes = p.notes) (h : ∀ notes, d.Gives (p.noted notes) answer (q.noted notes)) :
    d.Speaks p answer q := by
  refine ⟨#[], by simp, by rw [hn, Array.append_empty], ?_⟩
  intro notes
  rw [Array.append_empty]
  exact h notes

/-- A note that is made is no warning, and whether it is made is up to what it tells. -/
theorem speaks_of_note {told : List Value} {message : String} (hnotes : q.notes = (p.note told message).notes)
    (h : ∀ notes, d.Gives (p.noted notes) answer (q.noted ((p.noted notes).note told message).notes)) :
    d.Speaks p answer q := by
  cases hwritten : Value.areWritten told with
  | false =>
      have hquiet (r : Program) : (r.note told message).notes = r.notes :=
        if_neg (by rw [hwritten]; exact Bool.false_ne_true)
      refine speaks_of_silence (hnotes.trans (hquiet p)) fun notes => ?_
      have hgives := h notes
      rw [hquiet] at hgives
      exact hgives
  | true =>
      have hsaid (r : Program) : (r.note told message).notes = r.notes ++ #[⟨.program, .debug, message⟩] :=
        if_pos hwritten
      refine ⟨#[⟨.program, .debug, message⟩], by simp, hnotes.trans (hsaid p), fun notes => ?_⟩
      have hgives := h notes
      rw [hsaid] at hgives
      exact hgives

/-- **Calls do not look at notes.** -/
theorem Gives.speaks (h : d.Gives p answer q) : d.Speaks p answer q := by
  induction h with
  | refused hc hp => exact speaks_of_silence rfl fun _ => .refused hc hp
  | written ho hline =>
      refine speaks_of_silence (Program.notes_append _ _) fun notes => ?_
      have hgives := Gives.written (Program.isOpen_noted ho notes) hline
      rw [← Program.noted_append] at hgives
      exact hgives
  | faulty ho hline => exact speaks_of_silence rfl fun notes => .faulty (Program.isOpen_noted ho notes) hline
  | forced ho hf =>
      refine speaks_of_note (Program.notes_note_congr (Program.notes_append _ _)) fun notes => ?_
      have hgives := Gives.forced (Program.isOpen_noted ho notes) hf
      rw [← Program.noted_append] at hgives
      exact hgives
  | ended ho hf hup =>
      refine speaks_of_note (Program.notes_note_congr (by simp)) fun notes => ?_
      have hgives := Gives.ended (Program.isOpen_noted ho notes) hf hup
      rw [← Program.noted_stopped, ← Program.noted_append, ← Program.noted_append] at hgives
      exact hgives
  | stuck ho hf hup =>
      refine speaks_of_silence (Program.notes_stopped _) fun notes => ?_
      have hgives := Gives.stuck (Program.isOpen_noted ho notes) hf hup
      rw [← Program.noted_stopped] at hgives
      exact hgives
  | @added d p line hc hl =>
      refine speaks_of_silence (Program.notes_append _ _) fun notes => ?_
      have hgives : d.Gives (p.noted notes) (.ok none) ((p.noted notes).append line) := .added hc hl
      rw [← Program.noted_append] at hgives
      exact hgives
  | stray hc hv hl hn => exact speaks_of_silence rfl fun notes => .stray hc hv hl hn
  | unnumbered hc hv hl hn => exact speaks_of_silence rfl fun notes => .unnumbered hc hv hl hn
  | late hc hl => exact speaks_of_silence rfl fun notes => .late hc hl
  | repeated hl => exact speaks_of_silence rfl fun notes => .repeated hl
  | @sealed p hp hl hs =>
      refine speaks_of_note (Program.notes_note_congr (Program.notes_append _ _)) fun notes => ?_
      have hgives : eval.Gives (p.noted notes) (.ok (some ((p.noted notes).append openMarker).listed))
          ((p.noted notes).append openMarker).sealed := .sealed hp hl hs
      rw [← Program.noted_append] at hgives
      exact hgives
  | @unlisted p index v hp hl hs =>
      refine speaks_of_silence (Program.notes_append _ _) fun notes => ?_
      have hgives : eval.Gives (p.noted notes) (.error (.stray index v.kindName))
          ((p.noted notes).append openMarker) := .unlisted hp hl hs
      rw [← Program.noted_append] at hgives
      exact hgives
  | unended ho h ih =>
      obtain ⟨said, hdebug, hnotes, hgives⟩ := ih
      exact ⟨said, hdebug, hnotes, fun notes => .unended (Program.isOpen_noted ho notes) (hgives notes)⟩
  | finished ho h h' ih ih' =>
      obtain ⟨said, hdebug, hnotes, hgives⟩ := ih
      obtain ⟨more, hmore, hnotes', hgives'⟩ := ih'
      refine ⟨said ++ more, ?_, by rw [hnotes', hnotes, Array.append_assoc], ?_⟩
      · intro n hn
        rcases Array.mem_append.mp hn with hsaid | hlater
        · exact hdebug n hsaid
        · exact hmore n hlater
      · intro notes
        rw [← Array.append_assoc]
        exact .finished (Program.isOpen_noted ho notes) (hgives notes) (hgives' (notes ++ said))
  | assigned a =>
      cases a <;> exact speaks_of_silence rfl fun notes => .assigned _

end Call

/-! ### The second program and the first

The first program goes through the operations that are kept, the second through all of them.  At
an operation that is passed over the second alone moves on, by a warning; at any other both make
the same call.
-/

/-- The program `q` is the program `p` but for some warnings that it has been given. -/
structure Program.Hears (warned : List Note) (p q : Program) : Prop where
  same : q = p.noted q.notes
  consistent : p.Consistent
  warnings : q.notes.toList.filter Note.isWarning = warned
  others : q.notes.toList.filter (fun n => !n.isWarning) = p.notes.toList

namespace Operation

/-- What is said of the operations that are passed over, in order. -/
def warnings (ops : List Operation) : List Note := (ops.filterMap unsupportedKind?).map passedOver

omit [DigitLimit] in
/-- An operation is carried out or passed over. -/
theorem isSome_unsupportedKind? (op : Operation) : op.unsupportedKind?.isSome = !op.isSupported := by
  cases op <;> rfl

end Operation

namespace Program.Hears

variable {warned : List Note} {p q : Program}

/-- A call on the one program goes as on the other, and says the same. -/
theorem perform (h : p.Hears warned q) (d : Call) :
    Writing.Abreast (fun a p b q => a = b ∧ p.Hears warned q) (fun e _ e' _ => e = e')
      (d.perform.run p) (d.perform.run q) := by
  obtain ⟨said, hdebug, hnotes, hgives⟩ := (Call.gives_run h.consistent d).speaks
  have hconsistent := (Call.recorded_run h.consistent d).consistent
  have hrun := (hgives q.notes).run_eq
  rw [← h.same] at hrun
  rw [Call.perform_run, Call.perform_run, hrun]
  have hwarning : ∀ n ∈ said.toList, n.isWarning = false :=
    fun n hn => Note.isWarning_of_debug (hdebug n (Array.mem_def.mpr hn))
  have hafter : (d.run p).2.Hears warned ((d.run p).2.noted (q.notes ++ said)) := by
    refine ⟨rfl, hconsistent, ?_, ?_⟩
    · have hsaid : said.toList.filter Note.isWarning = [] := List.filter_eq_nil_iff.mpr (by simpa using hwarning)
      simp only [noted, Array.toList_append, List.filter_append, h.warnings, hsaid, List.append_nil]
    · have hsaid : said.toList.filter (fun n => !n.isWarning) = said.toList :=
        List.filter_eq_self.mpr (by simpa using hwarning)
      simp only [noted, Array.toList_append, List.filter_append, h.others, hsaid, hnotes]
  rcases hp : d.run p with ⟨answer, p'⟩
  rw [hp] at hafter
  cases answer with
  | ok text => exact .ok ⟨rfl, hafter⟩
  | error e => exact .error rfl

/-- A new program has had no warnings. -/
theorem opened (c : Config) (name : String) : (Program.opened c name).Hears [] (Program.opened c name) := by
  have hnotes : (Program.opened c name).notes = #[⟨.program, .debug, (blank c name).openedNote⟩] := by
    simp [Program.opened, note, headed, inMode, blank, Value.areWritten]
  refine ⟨(noted_notes _).symm, (isOpen_opened c name).consistent, ?_, ?_⟩
  · rw [hnotes]
    rfl
  · rw [hnotes]
    rfl

omit [DigitLimit] in
/-- An operation that is passed over adds its warning. -/
theorem passOver (h : p.Hears warned q) (kind : String) :
    p.Hears (warned ++ [Operation.passedOver kind])
      (q.noted (q.notes.push (Operation.passedOver kind))) := by
  have hwarning : (Operation.passedOver kind).isWarning = true := rfl
  refine ⟨?_, h.consistent, ?_, ?_⟩
  · rw [h.same]
    rfl
  · simp [noted, h.warnings, hwarning]
  · simp [noted, h.others, hwarning]

end Program.Hears

namespace Writing

open Operation

variable {warned : List Note} {p q : Program}

theorem run_carryOut_of_unsupported {op : Operation} (h : op.isSupported = false) (p : Program) :
    ∃ kind, op.unsupportedKind? = some kind
      ∧ (carryOut op).run p = .ok () (p.noted (p.notes.push (passedOver kind))) := by
  cases op with
  | foreign kind => exact ⟨kind, rfl, rfl⟩
  | value v => exact ⟨v.kindName, rfl, rfl⟩
  | _ => cases h

/-- **Operations with and without those that are passed over.** -/
theorem abreast_carryOutAll_filter (h : p.Hears warned q) (ops : List Operation) :
    Abreast (fun _ p _ q => p.Hears (warned ++ warnings ops) q) (fun e _ e' _ => e = e')
      ((carryOutAll (ops.filter isSupported)).run p) ((carryOutAll ops).run q) := by
  induction ops generalizing warned p q with
  | nil =>
      rw [show warned ++ warnings [] = warned from List.append_nil warned]
      exact .ok h
  | cons op rest ih =>
      rw [carryOutAll_cons]
      cases hs : op.isSupported with
      | false =>
          obtain ⟨kind, hkind, hrun⟩ := run_carryOut_of_unsupported hs q
          have hwarnings : warned ++ warnings (op :: rest) = warned ++ [passedOver kind] ++ warnings rest := by
            rw [warnings, List.filterMap_cons_some hkind, List.append_assoc]
            rfl
          rw [List.filter_cons_of_neg (by simp [hs]), EStateM.run_bind, hrun, hwarnings]
          exact ih (h.passOver kind)
      | true =>
          obtain ⟨d, hcall⟩ := Option.isSome_iff_exists.mp hs
          have hnone : op.unsupportedKind? = none := by
            rw [← Option.not_isSome_iff_eq_none, isSome_unsupportedKind?, hs]
            exact Bool.false_ne_true
          have hwarnings : warnings (op :: rest) = warnings rest := by
            rw [warnings, List.filterMap_cons_none hnone]
            rfl
          rw [List.filter_cons_of_pos hs, carryOutAll_cons, hwarnings]
          have hop : Abreast (fun _ p _ q => p.Hears warned q) (fun e _ e' _ => e = e')
              ((carryOut op).run p) ((carryOut op).run q) :=
            abreast_carryOut hcall (fun _ _ _ _ h => h.2) (h.perform d)
          exact hop.bind fun _ _ _ _ hafter => ih hafter

end Writing

/-! ### Generators -/

namespace Generator

/-- What is said over some operations beside what is said over those of them that can be
carried out. -/
structure Warns (ops : List Operation) (kept all : List Note) : Prop where
  /-- The warnings are those of the operations that are passed over. -/
  warnings : all.filter Note.isWarning = Operation.warnings ops
  /-- The other notes are the same, but that the last one counts all operations. -/
  others : ∃ said p, kept = said ++ [finished p (ops.filter Operation.isSupported).length]
    ∧ all.filter (fun n => !n.isWarning) = said ++ [finished p ops.length]

theorem respond_filter {p : Program} (h : p.Hears [] p) (ops : List Operation) :
    let kept := respond (.ok p) (ops.filter Operation.isSupported)
    (respond (.ok p) ops).1 = kept.1
    ∧ ((∃ listing, (respond (.ok p) ops).1 = .ok listing) → Warns ops kept.2 (respond (.ok p) ops).2) := by
  have habreast : Writing.Abreast (fun a p b q => a = b ∧ p.Hears ([] ++ Operation.warnings ops) q)
      (fun e _ e' _ => e = e')
      ((do Writing.carryOutAll (ops.filter Operation.isSupported); Writing.eval : Writing String).run p)
      ((do Writing.carryOutAll ops; Writing.eval : Writing String).run p) := by
    refine (Writing.abreast_carryOutAll_filter h ops).bind ?_
    intro _ p' _ q' hafter
    refine Writing.abreast_eval ?_ (hafter.perform .eval)
    rintro listing p listing' q ⟨heq, hlast⟩
    exact ⟨Option.some.inj heq, hlast⟩
  simp only [respond]
  generalize (do Writing.carryOutAll ops; Writing.eval : Writing String).run p = all at habreast ⊢
  generalize (do Writing.carryOutAll _; Writing.eval : Writing String).run p = kept at habreast ⊢
  cases habreast with
  | error he =>
      obtain rfl := he
      refine ⟨rfl, ?_⟩
      rintro ⟨listing, hlisting⟩
      cases hlisting
  | @ok listing listing' q q' hboth =>
      obtain ⟨rfl, hafter⟩ := hboth
      have hfinished (count : Nat) : finished q' count = finished q count := by
        rw [hafter.same]
        rfl
      have hinfo (count : Nat) : (finished q count).isWarning = false := rfl
      refine ⟨rfl, fun _ => ⟨?_, q.notes.toList, q, rfl, ?_⟩⟩
      · simp [hafter.warnings, hfinished, hinfo]
      · simp [hafter.others, hfinished, hinfo]

/-- **What is passed over is not seen.**  A generator answers operations, with a listing or with
an error, as it answers those among them that can be carried out, and the same names are left.
With a listing each of the others has its warning, in order, and there are no more warnings
than these. -/
theorem generate_filter_isSupported (g : Generator) (ops : List Operation) :
    let kept := ops.filter Operation.isSupported
    (g.generate ops).1 = (g.generate kept).1 ∧ (g.generate ops).2.2 = (g.generate kept).2.2
    ∧ (Operation.warnings ops).length = ops.countP (fun op => !op.isSupported)
    ∧ ((∃ listing, (g.generate ops).1 = .ok listing) → Warns ops (g.generate kept).2.1 (g.generate ops).2.1) := by
  intro kept
  have hcount : (Operation.warnings ops).length = ops.countP fun op => !op.isSupported := by
    rw [Operation.warnings, List.length_map, List.length_filterMap_eq_countP]
    simp only [Operation.isSome_unsupportedKind?]
  simp only [generate_eq, true_and]
  cases hopen : g.openNext.1 with
  | error e =>
      refine ⟨rfl, hcount, ?_⟩
      rintro ⟨listing, hlisting⟩
      cases hlisting
  | ok p =>
      obtain rfl := opened_of_openNext hopen
      obtain ⟨hanswer, hnotes⟩ := respond_filter (.opened g.config g.nextName) ops
      exact ⟨hanswer, hcount, hnotes⟩

end Generator

end

/-- A pause that no program knows, before the end and behind it, and a number in the place of
an operation. -/
theorem Generator.generate_filter_isSupported_of_pause :
    let g : Generator := ⟨{ Config.standard with name := some "7" }, none⟩
    let ops : List Operation := [.foreign "Dwell", .terminate (.bool true), .value (.int 3), .foreign "Dwell"]
    (g.generate ops).1 = .ok ("%\nO7\nN001 G21\nN002 G90\nN003 G00 Z100 F500\nN004 G00 X0 Y0 Z100 F500\n"
      ++ "N005 M00\n%")
    ∧ (g.generate ops).2.1.filter Note.isWarning
      = [Operation.passedOver "Dwell", Operation.passedOver "int", Operation.passedOver "Dwell"] := by
  intro g ops
  obtain ⟨hanswer, -, -, hwarns⟩ := generate_filter_isSupported g ops
  have hkept : Operation.EndsOnce [.terminate (.bool true)] := Operation.endsOnce_of_dropLast (by simp)
  have hlisting : (g.generate ops).1 = .ok ("%\nO7\nN001 G21\nN002 G90\nN003 G00 Z100 F500\n"
      ++ "N004 G00 X0 Y0 Z100 F500\nN005 M00\n%") := by
    refine hanswer.trans ((generate_of_endsOnce g hkept).trans ?_)
    rw [verdict_of_isFinite rfl (by decide +kernel)]
    exact congrArg Except.ok (by decide)
  exact ⟨hlisting, (hwarns ⟨_, hlisting⟩).warnings⟩

end PartProgram
