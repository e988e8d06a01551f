/-
The buffer behind an answer.

Operations that a generator answers to need not end the program at most at the very end: raw
lines may follow the end, and so may what no program can carry out.  Nothing else may, and
so there is still a closed form.  Each operation stands for some lines, the end of the
program for several and what is passed over for none; where no operation ends the program,
the evaluation does, and the lines of its end come last.

The induction is over the operations on an open program.  Its one step that is no step of
the list is the end: what comes behind it is a history of a closed program, of which
`carryOutAll_of_closed` knows the lines.
-/
import Mathlib.Data.List.Basic
import PartProgram.Proofs.StrictNumbers

namespace PartProgram

variable [DigitLimit]

open PartProgram.Numbering

/-! ### The lines of operations

For a closed form one has to know what each operation puts into the listing.  It is one line or
none, but for the end of the program, which puts several.  `Puts` names the cases once, so that
what is shown of lines later goes by the kind of line and not by the operation.
-/

namespace Config

/-- The lines that an operation puts into the listing. -/
def linesOf (c : Config) : Operation → List String
  | .terminate force => c.endLines force.isTrue
  | op => (op.line? c).toList

/-- The lines of operations up to the closing marker. -/
def bodyLines (c : Config) (ops : List Operation) : List String :=
  ops.flatMap c.linesOf ++ if ops.any Operation.isTerminate then [] else c.endLines false

/-- The lines of a listing of operations before they are numbered, raw lines behind the end
included. -/
def writtenLines (c : Config) (name : String) (ops : List Operation) : List String :=
  c.headLines name ++ c.bodyLines ops ++ [openMarker]

/-- The kinds of lines that an operation puts into the listing: the line of its motion, one
code, the end of the program, its text, or nothing. -/
inductive Puts (c : Config) (op : Operation) : List String → Prop where
  | motion (m : Motion) (hm : op.motion? c = some m) (hraw : op.rawText? = none) : Puts c op [c.motionText m]
  | preparatory (code : PreparatoryCode) (hm : op.motion? c = none) (hraw : op.rawText? = none) :
      Puts c op [code.toWord]
  | miscellaneous (code : MiscellaneousCode) (hm : op.motion? c = none) (hraw : op.rawText? = none) :
      Puts c op [code.toWord]
  | ended (forced : Bool) (hm : op.motion? c = none) (hraw : op.rawText? = none) : Puts c op (c.endLines forced)
  | text (t : String) (hm : op.motion? c = none) (hraw : op.rawText? = some t) : Puts c op [t]
  | nothing (hm : op.motion? c = none) (hraw : op.rawText? = none) : Puts c op []

omit [DigitLimit] in
theorem puts_linesOf (c : Config) (op : Operation) : c.Puts op (c.linesOf op) := by
  cases op with
  | setMode mode =>
      cases mode with
      | absolute => exact .preparatory .absolute rfl rfl
      | relative => exact .preparatory .relative rfl rfl
  | rapidMove target feed => exact .motion _ rfl rfl
  | linearMove target feed => exact .motion _ rfl rfl
  | dropMill depth => exact .motion _ rfl rfl
  | raiseMill depth => exact .motion _ rfl rfl
  | startSpindle clockwise =>
      have hword : c.linesOf (.startSpindle clockwise) = [if clockwise.isTrue then "M03" else "M04"] := rfl
      rw [hword]
      split
      · exact .miscellaneous .spindleClockwise rfl rfl
      · exact .miscellaneous .spindleCounterclockwise rfl rfl
  | stopSpindle => exact .miscellaneous .spindleStop rfl rfl
  | startCoolant flood =>
      have hword : c.linesOf (.startCoolant flood) = [if flood.isTrue then "M08" else "M07"] := rfl
      rw [hword]
      split
      · exact .miscellaneous .coolantFlood rfl rfl
      · exact .miscellaneous .coolantMist rfl rfl
  | stopCoolant => exact .miscellaneous .coolantStop rfl rfl
  | terminate force => exact .ended force.isTrue rfl rfl
  | rawLine t => exact .text t rfl rfl
  | foreign kind => exact .nothing rfl rfl
  | value v => exact .nothing rfl rfl

variable {c : Config}

section

omit [DigitLimit]

theorem linesOf_of_not_terminate {op : Operation} (h : op.isTerminate = false) :
    c.linesOf op = (op.line? c).toList := by
  cases op with
  | terminate force => cases h
  | _ => rfl

theorem bodyLines_cons {op : Operation} (h : op.isTerminate = false) (rest : List Operation) :
    c.bodyLines (op :: rest) = (op.line? c).toList ++ c.bodyLines rest := by
  rw [bodyLines, List.flatMap_cons, linesOf_of_not_terminate h, List.any_cons, h, Bool.false_or, List.append_assoc]
  rfl

theorem bodyLines_terminate (force : Value) (rest : List Operation) :
    c.bodyLines (.terminate force :: rest) = c.endLines force.isTrue ++ rest.flatMap c.linesOf := by
  rw [bodyLines, List.flatMap_cons, List.any_cons]
  exact List.append_nil _

end

/-- What a closed program does not refuse is a raw line, or nothing at all. -/
theorem quiet_of_late {op : Operation} (h : op.isRefusedLate = false) :
    c.linesOf op = op.rawText?.toList ∧ op.admitted c = .ok () := by
  cases op with
  | rawLine text => exact ⟨rfl, rfl⟩
  | foreign kind => exact ⟨rfl, rfl⟩
  | value v => exact ⟨rfl, rfl⟩
  | _ => cases h

theorem linesOf_late {late : List Operation} (h : ∀ op ∈ late, op.isRefusedLate = false) :
    late.flatMap c.linesOf = late.filterMap Operation.rawText? := by
  rw [List.filterMap_eq_flatMap_toList]
  exact List.flatMap_congr fun op hop => (quiet_of_late (h op hop)).1

end Config

/-! ### Programs that are answered

A program may be closed when it is evaluated, or it is closed by an operation with others behind
it, or the evaluation has to close it.  Each of these is reduced to the one before, and in each
the listing is the text of the buffer, so that it is enough to count the lines that were added.
-/

/-- The program `q` comes from `p` by some lines and an evaluation, and the listing is its
buffer. -/
structure Program.Listed (p : Program) (raw : List String) (listing : String) (q : Program) : Prop extends
    Grown p raw q where
  listing : listing = "\n".intercalate q.lines.toList

namespace Writing

variable {c : Config} {name : String} {p q : Program} {listing : String}

/-- The evaluation of a closed program. -/
theorem listed_of_closed (hc : p.phase = .closed) (hl : p.listing = none) (hs : p.strays = #[])
    (h : eval.run p = .ok listing q) : p.Listed [openMarker] listing q := by
  rw [eval_of_closed hc hl hs] at h
  obtain ⟨rfl, rfl⟩ := EStateM.Result.ok.inj h
  exact ⟨(Program.Grown.append p openMarker).congr rfl rfl, rfl⟩

/-- What comes behind the end of a program. -/
theorem listed_of_late (hf : p.Follows c name) (hc : p.phase = .closed) (hl : p.listing = none) {late : List Operation}
    (h : (do carryOutAll late; eval : Writing String).run p = .ok listing q) :
    (∀ op ∈ late, op.isRefusedLate = false)
      ∧ p.Listed (late.filterMap Operation.rawText? ++ [openMarker]) listing q := by
  have hlate := carryOutAll_of_closed hc hl late
  rw [EStateM.run_bind] at h
  by_cases hany : late.any Operation.isRefusedLate = true
  · rw [if_pos hany] at hlate
    obtain ⟨r, hr⟩ := hlate
    rw [hr] at h
    cases h
  · rw [if_neg hany] at hlate
    obtain ⟨r, hr, htrailing⟩ := hlate
    rw [hr] at h
    have hclose := listed_of_closed htrailing.phase (htrailing.listing.trans hl) (htrailing.follows hf).strays h
    refine ⟨?_, htrailing.toGrown.trans hclose.toGrown, hclose.listing⟩
    intro op hop
    exact (Bool.not_eq_true _).mp (List.any_eq_false.mp ((Bool.not_eq_true _).mp hany) op hop)

/-- The end of an open program and what comes behind it. -/
theorem listed_of_end (ho : p.IsOpen) (hf : p.Follows c name) {force : Value} {late : List Operation}
    (h : (do terminate force; carryOutAll late; eval : Writing String).run p = .ok listing q) :
    (∀ op ∈ late, op.isRefusedLate = false)
      ∧ p.Listed (c.endLines force.isTrue ++ (late.filterMap Operation.rawText? ++ [openMarker])) listing q := by
  obtain ⟨r, hr, hfinish⟩ := terminate_run ho hf force
  rw [EStateM.run_bind, hr] at h
  cases hv : endAdmitted c force.isTrue with
  | error e =>
      rw [hv] at h
      cases h
  | ok _ =>
      rw [hv] at h
      have hend := hfinish hv
      obtain ⟨hquiet, hlate⟩ := listed_of_late hend.follows hend.phase hend.listing h
      exact ⟨hquiet, hend.toGrown.trans hlate.toGrown, hlate.listing⟩

/-- **What is answered is written.**  Operations that an open program carries out and that an
evaluation follows add their lines, and the policy has let all of them through. -/
theorem listed_of_answer (ho : p.IsOpen) (hf : p.Follows c name) {ops : List Operation}
    (h : (do carryOutAll ops; eval : Writing String).run p = .ok listing q) :
    p.Listed (c.bodyLines ops ++ [openMarker]) listing q ∧ ∀ op ∈ ops, op.admitted c = .ok () := by
  induction ops generalizing p with
  | nil =>
      -- The evaluation ends the program.
      have heval : (do terminate (.bool false); carryOutAll []; eval : Writing String).run p = .ok listing q :=
        (run_eval_of_open ho).symm.trans h
      exact ⟨(listed_of_end ho hf heval).2, fun op hop => absurd hop List.not_mem_nil⟩
  | cons op rest ih =>
      rw [carryOutAll_cons, bind_assoc] at h
      cases ht : op.isTerminate with
      | true =>
          cases op with
          | terminate force =>
              have hend : (do terminate force; carryOutAll rest; eval : Writing String).run p = .ok listing q := by
                rw [EStateM.run_bind, run_carryOut_terminate] at h
                exact h
              obtain ⟨hquiet, hlisted⟩ := listed_of_end ho hf hend
              rw [Config.bodyLines_terminate, Config.linesOf_late hquiet, List.append_assoc]
              refine ⟨hlisted, ?_⟩
              intro op hop
              rcases List.mem_cons.mp hop with rfl | hlate
              · rfl
              · exact (Config.quiet_of_late (hquiet op hlate)).2
          | _ => cases ht
      | false =>
          obtain ⟨r, hprogress, hstep⟩ := carryOut_step ho hf ht
          rw [EStateM.run_bind, hstep] at h
          cases hv : op.admitted c with
          | error e =>
              rw [hv] at h
              cases h
          | ok _ =>
              rw [hv] at h
              obtain ⟨hlisted, hadmitted⟩ := ih hprogress.isOpen hprogress.follows h
              rw [Config.bodyLines_cons ht, List.append_assoc]
              refine ⟨⟨hprogress.toGrown.trans hlisted.toGrown, hlisted.listing⟩, ?_⟩
              exact List.forall_mem_cons.mpr ⟨hv, hadmitted⟩

end Writing

/-! ### Answers -/

namespace Generator

variable {g : Generator} {ops : List Operation} {listing : String}

/-- Behind every answer there is a buffer in closed form, and a favourable verdict. -/
theorem written_of_answer (h : (g.generate ops).1 = .ok listing) :
    g.config.verdict ops = .ok () ∧ ∃ p q, g.openNext.1 = .ok p
      ∧ (do Writing.carryOutAll ops; Writing.eval : Writing String).run p = .ok listing q
      ∧ q.lines.toList = entries (if g.config.lineNumbering then 1 else 0) (g.config.writtenLines g.nextName ops)
      ∧ listing = "\n".intercalate q.lines.toList := by
  obtain ⟨p, q, hp, hq⟩ := run_of_answer h
  obtain ⟨hraise, happroach, rfl⟩ := openNext_eq_ok hp
  obtain ⟨hlisted, hadmitted⟩ := Writing.listed_of_answer (Program.isOpen_opened _ _) (Program.follows_opened _ _) hq
  have hgrown := (Program.grown_opened g.config g.nextName).trans hlisted.toGrown
  refine ⟨Config.verdict_eq_ok.mpr ⟨hraise, happroach, hadmitted⟩, _, q, hp, hq, ?_, hlisted.listing⟩
  rw [hgrown.lines, Config.writtenLines, List.append_assoc]
  rfl

end Generator

end PartProgram
