/-
The listing of a list of operations.

`Config.listing` is the listing in closed form: six lines of opening, one line for each
operation, the lines of the end, the marker, all of them numbered where lines are.  It knows
no program, no phase and no counter.  What is proved is that a generator either finds
something wrong with its name or with a number of a motion or answers with exactly this text,
for operations that end the program at most once and carry nothing out behind that; and what
it finds fault with is up to `Generator.verdict`, which under the permissive policy lets
everything through that can be written.

An evaluation ends an open program by itself, so a list that ends the program without force
and one that does not end it at all have the same listing.
-/
import PartProgram.Proofs.Operations

namespace PartProgram

open PartProgram.Numbering

/-! ### The closed form

The form reads the lines off the operations, one by one, with nothing passed from one to the
next but the number of the line, which depends on how many numbered lines there are before it.
An end can be in the list or be left to the evaluation; the lines are the same, so only a forced
one has to be told.
-/

namespace Operation

variable {c : Config}

/-- Whether the operation is a forced end of the program. -/
def isForcedEnd : Operation → Bool
  | terminate force => force.isTrue
  | _ => false

/-- The operations end the program at most once, and nothing that a program could carry out
comes after that. -/
def EndsOnce (ops : List Operation) : Prop :=
  ∃ body tail, ops = body ++ tail ∧ (∀ op ∈ body, op.isTerminate = false)
    ∧ (tail = [] ∨ ∃ force rest, tail = terminate force :: rest ∧ ∀ op ∈ rest, op.isSupported = false)

theorem endsOnce_of_dropLast {ops : List Operation} (h : ∀ op ∈ ops.dropLast, op.isTerminate = false) :
    EndsOnce ops := by
  by_cases hne : ops = []
  · exact ⟨[], [], hne, fun op hop => absurd hop List.not_mem_nil, Or.inl rfl⟩
  · have hsplit := (List.dropLast_concat_getLast hne).symm
    cases hlast : (ops.getLast hne).isTerminate with
    | false =>
        refine ⟨ops, [], (List.append_nil ops).symm, ?_, Or.inl rfl⟩
        intro op hop
        rw [hsplit] at hop
        rcases List.mem_append.mp hop with hbody | hend
        · exact h op hbody
        · rw [List.mem_singleton.mp hend, hlast]
    | true =>
        cases hop : ops.getLast hne with
        | terminate force =>
            rw [hop] at hsplit
            exact ⟨ops.dropLast, [.terminate force], hsplit, h,
              Or.inr ⟨force, [], rfl, fun op hop => absurd hop List.not_mem_nil⟩⟩
        | _ => rw [hop] at hlast; cases hlast

end Operation

namespace Config

/-- The motions of a listing, in order. -/
def motions (c : Config) (ops : List Operation) : List Motion :=
  [c.raise, c.approach] ++ ops.filterMap (Operation.motion? c)
    ++ if ops.any Operation.isForcedEnd then [] else [c.raise]

/-- The lines of a listing before they are numbered. -/
def listingLines (c : Config) (name : String) (ops : List Operation) : List String :=
  c.headLines name ++ ops.filterMap (Operation.line? c) ++ c.endLines (ops.any Operation.isForcedEnd) ++ ["%"]

/-- The lines of a listing, numbered where lines are. -/
def buffer (c : Config) (name : String) (ops : List Operation) : List String :=
  entries (if c.lineNumbering then 1 else 0) (c.listingLines name ops)

/-- The listing of operations on a program of the given name. -/
def listing (c : Config) (name : String) (ops : List Operation) : String := "\n".intercalate (c.buffer name ops)

/-! ### The verdict on a listing

A listing is judged motion by motion: those of the opening, and those that the operations ask for.
The end asks for none that the opening has not.  For each of them the policy is asked, and then
whether its numbers can be written; a name out of a source has to be written as well.
-/

variable [DigitLimit]

/-- What there is to say against a program with some operations. -/
def verdict (c : Config) (ops : List Operation) : Except ProgramError Unit := do
  c.admits c.raise
  c.admits c.approach
  ops.forM (Operation.admitted c)

theorem verdict_eq_ok {c : Config} {ops : List Operation} : c.verdict ops = .ok () ↔
    c.admits c.raise = .ok () ∧ c.admits c.approach = .ok () ∧ ∀ op ∈ ops, op.admitted c = .ok () := by
  rw [verdict, ← forM_eq_ok]
  cases c.admits c.raise with
  | error e =>
      constructor
      · intro h
        cases h
      · intro h
        cases h.1
  | ok _ =>
      cases c.admits c.approach with
      | error e =>
          constructor
          · intro h
            cases h
          · intro h
            cases h.2.1
      | ok _ => exact ⟨fun h => ⟨rfl, rfl, h⟩, fun h => h.2.2⟩

omit [DigitLimit] in
theorem mem_motions {c : Config} {ops : List Operation} {m : Motion} :
    m ∈ c.motions ops ↔ m = c.raise ∨ m = c.approach ∨ ∃ op ∈ ops, op.motion? c = some m := by
  have hend : m ∈ (if ops.any Operation.isForcedEnd then [] else [c.raise]) → m = c.raise := by
    split
    · intro h
      cases h
    · exact List.mem_singleton.mp
  have hhead : m ∈ [c.raise, c.approach] ↔ m = c.raise ∨ m = c.approach := by
    rw [List.mem_cons, List.mem_singleton]
  rw [motions, List.mem_append, List.mem_append, List.mem_filterMap, hhead]
  constructor
  · rintro (((h | h) | h) | h)
    · exact Or.inl h
    · exact Or.inr (Or.inl h)
    · exact Or.inr (Or.inr h)
    · exact Or.inl (hend h)
  · rintro (h | h | h)
    · exact Or.inl (Or.inl (Or.inl h))
    · exact Or.inl (Or.inl (Or.inr h))
    · exact Or.inl (Or.inr h)

/-- Nothing is said against a listing all of whose motions are let through. -/
theorem verdict_eq_ok_iff_motions {c : Config} {ops : List Operation} :
    c.verdict ops = .ok () ↔ ∀ m ∈ c.motions ops, c.admits m = .ok () := by
  rw [verdict_eq_ok]
  constructor
  · rintro ⟨hraise, happroach, hops⟩ m hm
    rcases mem_motions.mp hm with rfl | rfl | ⟨op, hop, hmotion⟩
    · exact hraise
    · exact happroach
    · have hadmitted := hops op hop
      rwa [Operation.admitted, hmotion] at hadmitted
  · intro h
    refine ⟨h _ (mem_motions.mpr (Or.inl rfl)), h _ (mem_motions.mpr (Or.inr (Or.inl rfl))), fun op hop => ?_⟩
    cases hmotion : op.motion? c with
    | none => rw [Operation.admitted, hmotion]
    | some m =>
        rw [Operation.admitted, hmotion]
        exact h m (mem_motions.mpr (Or.inr (Or.inr ⟨op, hop, hmotion⟩)))

theorem verdict_of_isFinite {c : Config} {ops : List Operation} (h : ∀ m ∈ c.motions ops, m.IsFinite) :
    c.verdict ops = .ok () :=
  verdict_eq_ok_iff_motions.mpr fun m hm => admits_of_isFinite (h m hm)

end Config

/-! ### The run on a new program

Carrying operations out is followed by what the buffer has grown by, and the two meet at the
end: where an operation has ended the program the evaluation adds the marker alone, and where
none has it ends the program first.
-/

namespace Writing

variable [DigitLimit] {c : Config} {name : String}

/-- What an action answers. -/
def answer {α : Type} : EStateM.Result ProgramError Program α → Except ProgramError α
  | .ok a _ => .ok a
  | .error e _ => .error e

omit [DigitLimit] in
theorem answer_keeping {α : Type} (p : Program) (r : Except ProgramError α) : answer (keeping p r) = r := by
  cases r <;> rfl

/-- The listing of a closed program whose buffer has grown by the given lines. -/
theorem eval_of_finish {p q : Program} {done raw : List String} (hp : Program.Grown (Program.blank c name) done p)
    (hq : p.Finish c name raw q) :
    let buffer := entries (if c.lineNumbering then 1 else 0) (done ++ raw ++ ["%"])
    ∃ r, eval.run q = .ok ("\n".intercalate buffer) r ∧ r.lines.toList = buffer := by
  intro buffer
  have hgrown := (hp.trans hq.toGrown).snoc openMarker
  have hlines : (q.append openMarker).lines.toList = buffer := hgrown.lines
  refine ⟨(q.append openMarker).sealed, ?_, hlines⟩
  rw [eval_of_closed hq.phase hq.listing hq.follows.strays, Program.listed, hlines]

/-- Ending an open program and evaluating it. -/
theorem end_run {p : Program} {done : List String} (ho : p.IsOpen) (hf : p.Follows c name)
    (hp : Program.Grown (Program.blank c name) done p) (force : Value) :
    let buffer := entries (if c.lineNumbering then 1 else 0) (done ++ c.endLines force.isTrue ++ ["%"])
    ∃ q, (do terminate force; eval).run p
        = keeping q ((endAdmitted c force.isTrue).map fun _ => "\n".intercalate buffer)
      ∧ (endAdmitted c force.isTrue = .ok () → q.lines.toList = buffer) := by
  intro buffer
  obtain ⟨q, hrun, hfinish⟩ := terminate_run ho hf force
  rw [EStateM.run_bind, hrun]
  cases hv : endAdmitted c force.isTrue with
  | error e => exact ⟨q, rfl, fun h => by cases h⟩
  | ok _ =>
      obtain ⟨r, hr, hlines⟩ := eval_of_finish hp (hfinish hv)
      exact ⟨r, hr, fun _ => hlines⟩

/-- What no program can carry out has no line, no number to judge, and ends nothing. -/
theorem quiet_of_unsupported {rest : List Operation} (h : ∀ op ∈ rest, op.isSupported = false) :
    rest.filterMap (Operation.line? c) = [] ∧ rest.forM (Operation.admitted c) = .ok ()
      ∧ rest.any Operation.isForcedEnd = false := by
  have hquiet : ∀ op ∈ rest, op.line? c = none ∧ op.admitted c = .ok () ∧ op.isForcedEnd = false := by
    intro op hop
    have hcall := h op hop
    cases op with
    | foreign kind => exact ⟨rfl, rfl, rfl⟩
    | value v => exact ⟨rfl, rfl, rfl⟩
    | _ => cases hcall
  refine ⟨List.filterMap_eq_nil_iff.mpr fun op hop => (hquiet op hop).1,
    forM_eq_ok.mpr fun op hop => (hquiet op hop).2.1, List.any_eq_false.mpr ?_⟩
  intro op hop
  rw [(hquiet op hop).2.2]
  exact Bool.false_ne_true

omit [DigitLimit] in
theorem any_isForcedEnd_eq_false {body : List Operation} (h : ∀ op ∈ body, op.isTerminate = false) :
    body.any Operation.isForcedEnd = false := by
  refine List.any_eq_false.mpr ?_
  intro op hop hend
  have hno := h op hop
  cases op with
  | terminate force => cases hno
  | _ => cases hend

/-- What comes behind an end and is not carried out adds nothing to the closed form. -/
theorem buffer_of_end {body rest : List Operation} (hbody : ∀ op ∈ body, op.isTerminate = false)
    (hrest : ∀ op ∈ rest, op.isSupported = false) (force : Value) :
    c.buffer name (body ++ .terminate force :: rest) = entries (if c.lineNumbering then 1 else 0)
        (c.headLines name ++ body.filterMap (Operation.line? c) ++ c.endLines force.isTrue ++ ["%"])
      ∧ (body ++ .terminate force :: rest).forM (Operation.admitted c) = body.forM (Operation.admitted c) := by
  obtain ⟨hnolines, hfree, hnoend⟩ := quiet_of_unsupported (c := c) hrest
  constructor
  · have hany : (body ++ .terminate force :: rest).any Operation.isForcedEnd = force.isTrue := by
      rw [List.any_append, any_isForcedEnd_eq_false hbody, List.any_cons, hnoend, Bool.or_false]
      rfl
    rw [Config.buffer, Config.listingLines, hany, List.filterMap_append, List.filterMap_cons_none rfl,
      hnolines, List.append_nil]
  · rw [List.forM_eq_forM, List.forM_append, ← List.forM_eq_forM]
    cases body.forM (Operation.admitted c) with
    | error e => rfl
    | ok _ => exact hfree

/-- Carrying operations out on a new program and evaluating it. -/
theorem opened_run (name : String) {ops : List Operation} (h : Operation.EndsOnce ops)
    (hraise : c.admits c.raise = .ok ()) :
    ∃ q, (do carryOutAll ops; eval).run (Program.opened c name)
        = keeping q ((ops.forM (Operation.admitted c)).map fun _ => c.listing name ops)
      ∧ (ops.forM (Operation.admitted c) = .ok () → q.lines.toList = c.buffer name ops) := by
  obtain ⟨body, tail, rfl, hbody, htail⟩ := h
  obtain ⟨p, hrun, hprogress⟩ :=
    carryOutAll_run (Program.isOpen_opened c name) (Program.follows_opened c name) hbody
  have hgrown (h : body.forM (Operation.admitted c) = .ok ()) :=
    (Program.grown_opened c name).trans (hprogress h).toGrown
  rcases htail with rfl | ⟨force, rest, rfl, hrest⟩
  · -- Without an end the evaluation ends the program, and not by force.
    rw [List.append_nil, EStateM.run_bind, hrun, Config.listing, Config.buffer, Config.listingLines,
      any_isForcedEnd_eq_false hbody]
    cases hv : body.forM (Operation.admitted c) with
    | error e => exact ⟨p, rfl, fun h => by cases h⟩
    | ok _ =>
        have hp := hprogress hv
        have hend := end_run hp.isOpen hp.follows (hgrown hv) (.bool false)
        have hok : endAdmitted c (Value.bool false).isTrue = .ok () := hraise
        rw [hok, ← run_eval_of_open hp.isOpen] at hend
        exact hend
  · obtain ⟨hbuffer, hverdict⟩ := buffer_of_end (c := c) hbody hrest force
    rw [Config.listing, hbuffer, hverdict, carryOutAll_append, bind_assoc, EStateM.run_bind, hrun]
    cases hv : body.forM (Operation.admitted c) with
    | error e => exact ⟨p, rfl, fun h => by cases h⟩
    | ok _ =>
        have hp := hprogress hv
        obtain ⟨q, hend, hfinish⟩ := terminate_run hp.isOpen hp.follows force
        have hok : endAdmitted c force.isTrue = .ok () := by
          rw [endAdmitted, hraise, ite_self]
        obtain ⟨notes, hnotes⟩ := carryOutAll_of_unsupported hrest q
        have hq := hfinish hok
        have hquiet : p.Finish c name (c.endLines force.isTrue) { q with notes } :=
          ⟨hq.toGrown.congr rfl rfl, hq.phase, hq.listing, hq.follows.withNotes notes⟩
        obtain ⟨r, hr, hlines⟩ := eval_of_finish (hgrown hv) hquiet
        refine ⟨r, ?_, fun _ => hlines⟩
        rw [carryOutAll_cons, bind_assoc]
        simp only [keeping, EStateM.run_bind, run_carryOut_terminate, hend, hok, hnotes]
        exact hr

end Writing

/-! ### Generators -/

namespace Generator

section

variable [DigitLimit]

/-- The name of the next program. -/
def nextName (g : Generator) : String := (g.config.nextName (g.names.getD .standard)).1

/-- Refuses the name of the next program where it cannot be written. -/
def checkName (g : Generator) : Except ProgramError Unit :=
  g.config.checkName (g.names.getD .standard)

/-- What there is to say against the listing of some operations. -/
def verdict (g : Generator) (ops : List Operation) : Except ProgramError Unit := do
  g.checkName
  g.config.verdict ops

/-- What goes into the listing of some operations can be written: the name, and the numbers of every motion. -/
def Writes (g : Generator) (ops : List Operation) : Prop :=
  g.checkName = .ok () ∧ ∀ m ∈ g.config.motions ops, m.IsWritten (LengthUnit.factor g.config.unit)

theorem openNext_eq (g : Generator) :
    g.openNext.1 = (do g.checkName; Program.openNamed g.config g.nextName) := by
  rw [openNext, nextName, checkName]
  cases g.names with
  | none => rfl
  | some names => rfl

/-- A new program has the name that the generator has next, and its two motions were let through. -/
theorem openNext_eq_ok {g : Generator} {p : Program} (h : g.openNext.1 = .ok p) :
    g.config.admits g.config.raise = .ok () ∧ g.config.admits g.config.approach = .ok ()
      ∧ p = Program.opened g.config g.nextName := by
  rw [openNext_eq] at h
  obtain ⟨-, -, hopen⟩ := bind_eq_ok.mp h
  exact Program.openNamed_eq_ok hopen

theorem opened_of_openNext {g : Generator} {p : Program} (h : g.openNext.1 = .ok p) :
    p = Program.opened g.config g.nextName :=
  (openNext_eq_ok h).2.2

/-- A generator answers what carrying the operations out and evaluating answers. -/
theorem fst_generate (g : Generator) (ops : List Operation) :
    (g.generate ops).1 = g.openNext.1.bind fun p =>
      Writing.answer ((do Writing.carryOutAll ops; Writing.eval).run p) := by
  rw [generate, build]
  rcases hopen : g.openNext with ⟨made, after⟩
  cases made with
  | error e => rfl
  | ok p =>
      rw [Except.bind, EStateM.run_bind]
      cases hrun : (Writing.carryOutAll ops).run p with
      | error e q => simp only [hrun]; rfl
      | ok _ q =>
          cases heval : Writing.eval.run q with
          | error e r => simp only [hrun, heval]; rfl
          | ok listing r => simp only [hrun, heval]; rfl

/-- For operations that end the program at most once, the answer is the listing in closed
form, unless there is something to say against it. -/
theorem generate_of_endsOnce (g : Generator) {ops : List Operation} (h : Operation.EndsOnce ops) :
    (g.generate ops).1 = (g.verdict ops).map fun _ => g.config.listing g.nextName ops := by
  rw [fst_generate, openNext_eq, Program.openNamed_eq, verdict, Config.verdict]
  cases g.checkName with
  | error e => rfl
  | ok _ =>
  cases hraise : g.config.admits g.config.raise with
  | error e => rfl
  | ok _ =>
      cases g.config.admits g.config.approach with
      | error e => rfl
      | ok _ =>
          obtain ⟨q, hrun, -⟩ := Writing.opened_run g.nextName h hraise
          show Writing.answer ((do Writing.carryOutAll ops; Writing.eval).run (Program.opened g.config g.nextName)) = _
          rw [hrun, Writing.answer_keeping]
          rfl

theorem verdict_eq_ok {g : Generator} {ops : List Operation} :
    g.verdict ops = .ok () ↔ g.checkName = .ok () ∧ g.config.verdict ops = .ok () := by
  rw [verdict, bind_eq_ok]
  exact ⟨fun ⟨_, hname, hops⟩ => ⟨hname, hops⟩, fun ⟨hname, hops⟩ => ⟨(), hname, hops⟩⟩

/-- Nothing is said against finite numbers under either policy. -/
theorem verdict_of_isFinite {g : Generator} {ops : List Operation} (hname : g.checkName = .ok ())
    (h : ∀ m ∈ g.config.motions ops, m.IsFinite) : g.verdict ops = .ok () :=
  verdict_eq_ok.mpr ⟨hname, Config.verdict_of_isFinite h⟩

end

end Generator

end PartProgram
