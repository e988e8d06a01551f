/-
Programs of one generator have nothing in common but their names.

A generator hands its source of names from one program to the next, and nothing else.  So what a
run answers is settled by the name it is given, and the source has gone on by one name for each
run that was started, whatever came of it; by none where the configuration has a name.

What a name is worth is seen by carrying one program over to another name.  `renamed` puts the
other name where the first one stands, in the second entry of the buffer and in the text of a
listing, and leaves everything else alone.  A call on the program renamed does what it does on
the program: this holds rule by rule, because a line that is added goes behind the second entry,
and no rule looks at the name but to put it into an error.
-/
import PartProgram.Proofs.Abreast
import PartProgram.Proofs.Refusals
import PartProgram.Proofs.Unnumbered

namespace PartProgram

open PartProgram.Numbering

/-! ### Errors and names

Two of the errors of a program give its name, those for a program that is closed or evaluated.
All others come from numbers, modes and positions.  So where a program has another name an error
is the same but for these two.
-/

namespace ProgramError

/-- The error of the program with another name. -/
def retitled (name : String) : ProgramError → ProgramError
  | evaluated _ => evaluated (.text name)
  | notOpen _ phase => notOpen (.text name) phase
  | e => e

/-- An error that gives the name of its program. -/
def IsTitled : ProgramError → Prop
  | evaluated _ | notOpen _ _ => True
  | _ => False

theorem retitled_of_not_isTitled {e : ProgramError} (h : ¬ e.IsTitled) (name : String) : e.retitled name = e := by
  cases e with
  | evaluated given => exact absurd trivial h
  | notOpen given phase => exact absurd trivial h
  | _ => rfl

end ProgramError

section

variable [DigitLimit]

omit [DigitLimit] in
/-- The policy does not ask for the name. -/
theorem Config.not_isTitled_of_judge {c : Config} {numbers : List (String × Value)} {e : ProgramError}
    (h : numbers.forM c.judge = .error e) : ¬ e.IsTitled := by
  intro htitled
  obtain ⟨number, -, hjudge⟩ := forM_eq_error h
  have hfails : Fails ProgramError.IsTitled (c.judge number) := ⟨e, hjudge, htitled⟩
  unfold judge at hfails
  split at hfails
  · exact not_fails_of_forall (fun _ => id) (fails_mapError.mp hfails)
  · exact not_fails_ok _ hfails

theorem Config.not_isTitled_of_admits {c : Config} {m : Motion} {e : ProgramError} (h : c.admits m = .error e) :
    ¬ e.IsTitled := by
  rcases bind_eq_error.mp h with hjudged | ⟨_, -, hwritten⟩
  · exact not_isTitled_of_judge hjudged
  · obtain ⟨_, -, rfl⟩ := mapError_eq_error.mp hwritten
    exact id

theorem Config.not_isTitled_of_checkName {c : Config} {names : NameSource} {e : ProgramError}
    (h : c.checkName names = .error e) : ¬ e.IsTitled := by
  unfold checkName at h
  split at h
  · cases h
  · obtain ⟨_, -, rfl⟩ := mapError_eq_error.mp h
    exact id

/-- No motion fails over the name. -/
theorem Program.not_isTitled_of_motion {p : Program} {code : PreparatoryCode} {target : Position} {feed : Value}
    {e : ProgramError} (h : p.motion code target feed = .error e) : ¬ e.IsTitled := by
  rw [motion_eq, lineFor] at h
  rcases bind_eq_error.mp h with hjudged | ⟨_, -, hline⟩
  · exact Config.not_isTitled_of_judge hjudged
  · obtain ⟨_, -, rfl⟩ := mapError_eq_error.mp hline
    exact id

theorem Call.not_isTitled_of_line {d : Call} {p : Program} {e : ProgramError} (h : d.line? p = some (.error e)) :
    ¬ e.IsTitled := by
  have hmove {code : PreparatoryCode} {position feed : Value} (h : p.motionTo code position feed = .error e) :
      ¬ e.IsTitled := by
    unfold Program.motionTo at h
    split at h
    · exact Program.not_isTitled_of_motion h
    · obtain rfl := Except.error.inj h
      exact id
  cases d with
  | setMode given =>
      have hmode := Option.some.inj h
      cases hgiven : DistanceMode.ofValue? given with
      | ok m =>
          rw [hgiven] at hmode
          cases hmode
      | error u =>
          rw [hgiven] at hmode
          obtain rfl := Except.error.inj hmode
          exact id
  | rapidMove position feed => exact hmove (Option.some.inj h)
  | linearMove position feed => exact hmove (Option.some.inj h)
  | dropMill depth => exact Program.not_isTitled_of_motion (Option.some.inj h)
  | raiseMill depth => exact Program.not_isTitled_of_motion (Option.some.inj h)
  | _ => cases h

/-! ### A program under another name

The name of a program stands in its second entry and in its listing, and the entry is in the
buffer from the start.  What comes later is put behind it, so exchanging the name and adding a
line can be done in either order, and each rule for calls carries over.
-/

namespace Program

variable {p : Program} {name : String}

/-- The program under another name, whatever was said of it. -/
def renamed (name : String) (notes : Array Note) (p : Program) : Program :=
  { p with
    name := .text name
    lines := p.lines.setIfInBounds 1 (nameLetter ++ name)
    listing := p.listing.map fun _ => "\n".intercalate (p.lines.setIfInBounds 1 (nameLetter ++ name)).toList
    notes }

/-- A program that has its first two lines and takes more. -/
structure Headed (p : Program) : Prop where
  size : 1 < p.lines.size
  listing : p.listing = none

section

omit [DigitLimit]

@[simp]
theorem size_append (line : String) (p : Program) : (p.append line).lines.size = p.lines.size + 1 := by
  rw [append_eq, Array.size_push]

theorem Headed.append (h : p.Headed) (line : String) : (p.append line).Headed :=
  ⟨by rw [size_append]; exact Nat.lt_succ_of_lt h.size, (listing_append line p).trans h.listing⟩

theorem Headed.inMode (h : p.Headed) (m : DistanceMode) : (p.inMode m).Headed := ⟨h.size, h.listing⟩

theorem Headed.stopped (h : p.Headed) : p.stopped.Headed := (h.append _).append _

/-- What is added goes behind the name. -/
theorem setIfInBounds_push {lines : Array String} (h : 1 < lines.size) (title entry : String) :
    (lines.push entry).setIfInBounds 1 title = (lines.setIfInBounds 1 title).push entry := by
  have hpush : 1 < (lines.push entry).size := by
    rw [Array.size_push]
    omega
  rw [Array.setIfInBounds, Array.setIfInBounds, dif_pos h, dif_pos hpush, Array.set_push, dif_pos h]

theorem renamed_append (h : p.Headed) (name : String) (notes : Array Note) (line : String) :
    (p.append line).renamed name notes = (p.renamed name notes).append line := by
  rw [append_eq, append_eq]
  simp only [renamed, setIfInBounds_push h.size, h.listing, Option.map_none]

theorem renamed_appendStray (h : p.Headed) (name : String) (notes : Array Note) (v : Value) :
    (p.appendStray v).renamed name notes = (p.renamed name notes).appendStray v := by
  simp only [appendStray, renamed, setIfInBounds_push h.size, h.listing, Option.map_none, Array.size_setIfInBounds]

theorem renamed_inMode (m : DistanceMode) (name : String) (notes : Array Note) (p : Program) :
    (p.inMode m).renamed name notes = (p.renamed name notes).inMode m := rfl

theorem renamed_stopped (h : p.Headed) (name : String) (notes : Array Note) :
    p.stopped.renamed name notes = (p.renamed name notes).stopped := by
  rw [stopped, renamed_append (h.append _), renamed_append h]
  rfl

end

theorem renamed_ended (force : Value) (name : String) (notes : Array Note) (p : Program) :
    (p.ended force).renamed name ((p.renamed name notes).ended force).notes = (p.renamed name notes).ended force := rfl

theorem renamed_sealed (name : String) (notes : Array Note) (p : Program) :
    p.sealed.renamed name (p.renamed name notes).sealed.notes = (p.renamed name notes).sealed := rfl

omit [DigitLimit] in
theorem isOpen_renamed (ho : p.IsOpen) (name : String) (notes : Array Note) : (p.renamed name notes).IsOpen :=
  ⟨ho.phase, by rw [renamed, ho.listing]; rfl⟩

omit [DigitLimit] in
theorem listing_renamed_eq_none (hl : p.listing = none) (name : String) (notes : Array Note) :
    (p.renamed name notes).listing = none := by
  rw [renamed, hl]
  rfl

end Program

namespace Call

variable {d : Call} {p q : Program} {answer : Except ProgramError (Option String)} {name : String}

theorem Gives.size_le (h : d.Gives p answer q) (hp : p.Consistent) : p.lines.size ≤ q.lines.size := by
  have hlines := (recorded_run hp d).lines
  rw [h.run_eq] at hlines
  have hlength := congrArg List.length hlines
  simp only [List.length_append, Array.length_toList] at hlength
  omega

/-- What a call answers on a program under another name. -/
def renamedAnswer (name : String) (q : Program) :
    Except ProgramError (Option String) → Except ProgramError (Option String)
  | .ok text => .ok (text.map fun _ => (q.renamed name #[]).listed)
  | .error e => .error (e.retitled name)

/-- **Calls do not look at the name.**  What a call gives on a program it gives on the program
under another name. -/
theorem Gives.renamed (h : d.Gives p answer q) (ha : d.isAssignment = false) (hs : 1 < p.lines.size)
    (notes : Array Note) :
    ∃ more, d.Gives (p.renamed name notes) (renamedAnswer name q answer) (q.renamed name more) := by
  induction h generalizing notes with
  | refused hc hp => exact ⟨notes, .refused hc hp⟩
  | written ho hline =>
      refine ⟨notes, ?_⟩
      have hgives := Gives.written (Program.isOpen_renamed ho name notes) hline
      rw [← Program.renamed_append ⟨hs, ho.listing⟩] at hgives
      exact hgives
  | @faulty d p e ho hline =>
      have he : renamedAnswer name p (.error e) = .error e :=
        congrArg Except.error (ProgramError.retitled_of_not_isTitled (not_isTitled_of_line hline) _)
      rw [he]
      exact ⟨notes, .faulty (Program.isOpen_renamed ho name notes) hline⟩
  | forced ho hf =>
      have hgives := Gives.forced (Program.isOpen_renamed ho name notes) hf
      rw [← Program.renamed_append ⟨hs, ho.listing⟩, ← Program.renamed_ended] at hgives
      exact ⟨_, hgives⟩
  | ended ho hf hup =>
      have hstopped := Program.Headed.stopped ⟨hs, ho.listing⟩
      have hgives := Gives.ended (Program.isOpen_renamed ho name notes) hf hup
      rw [← Program.renamed_stopped ⟨hs, ho.listing⟩, ← Program.renamed_append hstopped,
        ← Program.renamed_append (hstopped.append _), ← Program.renamed_ended] at hgives
      exact ⟨_, hgives⟩
  | @stuck p force e ho hf hup =>
      have he : renamedAnswer name p.stopped (.error e) = .error e :=
        congrArg Except.error (ProgramError.retitled_of_not_isTitled (Program.not_isTitled_of_motion hup) _)
      rw [he]
      have hgives := Gives.stuck (Program.isOpen_renamed ho name notes) hf hup
      rw [← Program.renamed_stopped ⟨hs, ho.listing⟩] at hgives
      exact ⟨notes, hgives⟩
  | @added d p line hc hl =>
      refine ⟨notes, ?_⟩
      rw [Program.renamed_append ⟨hs, hl⟩]
      exact .added hc (Program.listing_renamed_eq_none hl name notes)
  | stray hc hv hl hn =>
      refine ⟨notes, ?_⟩
      rw [Program.renamed_appendStray ⟨hs, hl⟩]
      exact .stray hc hv (Program.listing_renamed_eq_none hl name notes) hn
  | unnumbered hc hv hl hn =>
      exact ⟨notes, .unnumbered hc hv (Program.listing_renamed_eq_none hl name notes) hn⟩
  | late hc hl => exact ⟨notes, .late hc (Option.isSome_map.trans hl)⟩
  | repeated hl => exact ⟨notes, .repeated (by rw [Program.renamed, hl]; rfl)⟩
  | @sealed p hp hl hs' =>
      have hgives : eval.Gives (p.renamed name notes) (.ok (some ((p.renamed name notes).append openMarker).listed))
          ((p.renamed name notes).append openMarker).sealed :=
        .sealed hp (Program.listing_renamed_eq_none hl name notes) hs'
      rw [← Program.renamed_append ⟨hs, hl⟩, ← Program.renamed_sealed] at hgives
      exact ⟨_, hgives⟩
  | @unlisted p index v hp hl hs' =>
      have hgives : eval.Gives (p.renamed name notes) (.error (.stray index v.kindName))
          ((p.renamed name notes).append openMarker) :=
        .unlisted hp (Program.listing_renamed_eq_none hl name notes) hs'
      rw [← Program.renamed_append ⟨hs, hl⟩] at hgives
      exact ⟨notes, hgives⟩
  | unended ho h ih =>
      obtain ⟨more, hgives⟩ := ih rfl hs notes
      exact ⟨more, .unended (Program.isOpen_renamed ho name notes) hgives⟩
  | finished ho h h' ih ih' =>
      obtain ⟨said, hgives⟩ := ih rfl hs notes
      obtain ⟨more, hgives'⟩ := ih' ha (Nat.lt_of_lt_of_le hs (h.size_le ho.consistent)) said
      exact ⟨more, .finished (Program.isOpen_renamed ho name notes) hgives hgives'⟩
  | assigned a => cases ha

end Call

/-- The program `q` is the program `p` under another name. -/
structure Program.Bears (name : String) (p q : Program) : Prop where
  same : q = p.renamed name q.notes
  consistent : p.Consistent
  size : 1 < p.lines.size

namespace Program.Bears

variable {name : String} {p q : Program}

omit [DigitLimit] in
/-- What is said does not matter. -/
theorem noted (h : p.Bears name q) (a b : Array Note) : { p with notes := a }.Bears name { q with notes := b } := by
  refine ⟨?_, h.consistent, h.size⟩
  rw [h.same]
  rfl

omit [DigitLimit] in
/-- The name of the second program stands in its second entry. -/
theorem second (h : p.Bears name q) : q.lines[1]? = some (nameLetter ++ name) := by
  rw [h.same, renamed, Array.getElem?_setIfInBounds, if_pos rfl, if_pos h.size]

/-- A call on the one program goes as on the other. -/
theorem perform (h : p.Bears name q) {d : Call} (ha : d.isAssignment = false) :
    Writing.Abreast (fun a p b q => b = a.map (fun _ => q.listed) ∧ p.Bears name q)
      (fun e p e' q => e' = e.retitled name ∧ p.Bears name q) (d.perform.run p) (d.perform.run q) := by
  have hgives := Call.gives_run h.consistent d
  have hconsistent := (Call.recorded_run h.consistent d).consistent
  have hsize := Nat.lt_of_lt_of_le h.size (hgives.size_le h.consistent)
  obtain ⟨notes, hother⟩ := hgives.renamed ha h.size q.notes
  have hrun := hother.run_eq
  rw [← h.same] at hrun
  have hafter : (d.run p).2.Bears name ((d.run p).2.renamed name notes) := ⟨rfl, hconsistent, hsize⟩
  rw [Call.perform_run, Call.perform_run, hrun]
  rcases hp : d.run p with ⟨answer, p'⟩
  rw [hp] at hafter
  cases answer with
  | ok text => exact .ok ⟨rfl, hafter⟩
  | error e => exact .error ⟨rfl, hafter⟩

end Program.Bears

/-! ### The run of a generator under another name

What two runs are to agree in is said by `Renames`, and the agreement of runs is put together
from that of their calls in `Abreast`.  The notes are left out of it, since the texts of notes
have the name in them in many ways.
-/

namespace Writing

variable {name : String} {p q : Program}

omit [DigitLimit] in
theorem isAssignment_of_call {op : Operation} {d : Call} (h : op.call? = some d) : d.isAssignment = false := by
  cases op with
  | foreign kind => cases h
  | value v => cases h
  | _ =>
      obtain rfl := Option.some.inj h
      rfl

/-- The second result is the first under another name. -/
abbrev Renames (name : String) {α : Type} :=
  Abreast (α := α) (β := α) (fun _ p _ q => p.Bears name q)
    (fun e p e' q => e' = e.retitled name ∧ p.Bears name q)

theorem renames_carryOut (h : p.Bears name q) (op : Operation) :
    Renames name ((carryOut op).run p) ((carryOut op).run q) := by
  cases hcall : op.call? with
  | none =>
      cases op with
      | foreign kind => exact .ok (h.noted _ _)
      | value v => exact .ok (h.noted _ _)
      | _ => cases hcall
  | some d => exact abreast_carryOut hcall (fun _ _ _ _ h => h.2) (h.perform (isAssignment_of_call hcall))

theorem renames_carryOutAll (h : p.Bears name q) (ops : List Operation) :
    Renames name ((carryOutAll ops).run p) ((carryOutAll ops).run q) := by
  induction ops generalizing p q with
  | nil => exact .ok h
  | cons op rest ih =>
      rw [carryOutAll_cons]
      exact (renames_carryOut h op).bind fun _ _ _ _ hafter => ih hafter

/-- The second listing is the text of the second buffer. -/
theorem abreast_listed (h : p.Bears name q) (ops : List Operation) :
    Abreast (fun _ p listing q => listing = q.listed ∧ p.Bears name q)
      (fun e p e' q => e' = e.retitled name ∧ p.Bears name q)
      ((do carryOutAll ops; eval : Writing String).run p) ((do carryOutAll ops; eval : Writing String).run q) := by
  refine (renames_carryOutAll h ops).bind ?_
  intro _ p' _ q' hafter
  refine abreast_eval ?_ (hafter.perform rfl)
  rintro _ p listing q ⟨hlisting, hlast⟩
  exact ⟨Option.some.inj hlisting, hlast⟩

end Writing

namespace Program

variable (c : Config) (name other : String)

omit [DigitLimit] in
/-- The first two lines, under the one name and under the other. -/
theorem renamed_titled : (((blank c name).append openMarker).append (nameLetter ++ name)).renamed other #[]
    = ((blank c other).append openMarker).append (nameLetter ++ other) := by
  have hmarker : isUnnumbered openMarker = true := rfl
  simp only [append_eq, entry_of_isUnnumbered hmarker, entry_of_isUnnumbered (isUnnumbered_title name),
    entry_of_isUnnumbered (isUnnumbered_title other), numberAfter_of_isUnnumbered hmarker,
    numberAfter_of_isUnnumbered (isUnnumbered_title name), numberAfter_of_isUnnumbered (isUnnumbered_title other)]
  rfl

omit [DigitLimit] in
theorem headed_blank : (blank c name).headed = (((((blank c name).append openMarker).append (nameLetter ++ name)).append
    (LengthUnit.code c.unit).toWord).append c.mode.code.toWord).inMode c.mode := rfl

variable {c name other} in
theorem Bears.of_note {p q : Program} (h : p.renamed other #[] = q) (ho : p.IsOpen) (hs : 1 < p.lines.size)
    (told told' : List Value) (a b : String) : (p.note told a).Bears other (q.note told' b) := by
  refine ⟨?_, (ho.note told a).consistent, hs⟩
  rw [← h]
  rfl

/-- A new program is any other new program of the configuration under its name. -/
theorem bears_opened : (opened c name).Bears other (opened c other) := by
  have htitled : (((blank c name).append openMarker).append (nameLetter ++ name)).Headed :=
    ⟨by simp [blank], by simp [blank]⟩
  have hunit := htitled.append (LengthUnit.code c.unit).toWord
  have hmode := hunit.append c.mode.code.toWord
  have hheaded : (blank c name).headed.Headed := by
    rw [headed_blank]
    exact hmode.inMode c.mode
  have hhead : (blank c name).headed.renamed other #[] = (blank c other).headed := by
    rw [headed_blank, headed_blank, renamed_inMode, renamed_append hunit, renamed_append htitled, renamed_titled]
  rw [opened, opened]
  refine Bears.of_note ?_ (((isOpen_blank c name).headed.append _).append _) ((hheaded.append _).append _).size _ _ _ _
  rw [renamed_append (hheaded.append _), renamed_append hheaded, hhead]

end Program

/-! ### Generators -/

namespace Generator

/-- What a generator answers to operations and what it says over them. -/
def response (g : Generator) (ops : List Operation) : Except ProgramError String × List Note :=
  ((g.generate ops).1, (g.generate ops).2.1)

/-- What a generator answers and says to one list of operations after another, whatever comes of
them, and the generator after that. -/
def generateAll : List (List Operation) → Generator → List (Except ProgramError String × List Note) × Generator
  | [], g => ([], g)
  | ops :: rest, g =>
    let (responses, last) := generateAll rest (g.generate ops).2.2
    (g.response ops :: responses, last)

/-- The program that a run leaves, also where it fails; none where no program was opened. -/
def left (g : Generator) (ops : List Operation) : Option Program :=
  g.openNext.1.toOption.map fun p => Writing.left ((do Writing.carryOutAll ops; Writing.eval : Writing String).run p)

/-- Two runs of the same operations that differ in the name alone. -/
structure AlikeButName (g g' : Generator) (ops : List Operation) : Prop where
  accepts : (∃ listing, (g.generate ops).1 = .ok listing) ↔ ∃ listing, (g'.generate ops).1 = .ok listing
  /-- What is wrong is the same, the name in its words apart. -/
  rejects : ∀ e, (g.generate ops).1 = .error e → (g'.generate ops).1 = .error (e.retitled g'.nextName)
  /-- The buffers are the same but for the second entry. -/
  buffer : (g'.left ops).map Program.lines
    = (g.left ops).map fun p => p.lines.setIfInBounds 1 (nameLetter ++ g'.nextName)
  second : ∀ p, g'.left ops = some p → p.lines[1]? = some (nameLetter ++ g'.nextName)
  /-- A listing is the text of the buffer. -/
  listing : ∀ listing, (g'.generate ops).1 = .ok listing → (g'.left ops).map Program.listed = some listing

variable {c : Config} {names : NameSource}

theorem response_eq (c : Config) (names : NameSource) (ops : List Operation) :
    response ⟨c, some names⟩ ops
      = respond (do c.checkName names; Program.openNamed c (c.nextName names).1) ops := by
  rw [response, generate_eq]
  rfl

theorem generateAll_cons (c : Config) (names : NameSource) (ops : List Operation) (rest : List (List Operation)) :
    generateAll (ops :: rest) ⟨c, some names⟩ =
      let (responses, last) := generateAll rest ⟨c, some (c.nextName names).2⟩
      (response ⟨c, some names⟩ ops :: responses, last) := by
  rw [generateAll, generate_eq]
  rfl

theorem length_generateAll (runs : List (List Operation)) (g : Generator) :
    (generateAll runs g).1.length = runs.length := by
  induction runs generalizing g with
  | nil => rfl
  | cons ops rest ih => exact congrArg (· + 1) (ih _)

/-- One name is taken for each run, and none where the configuration has one. -/
theorem snd_generateAll (c : Config) (names : NameSource) (runs : List (List Operation)) :
    (generateAll runs ⟨c, some names⟩).2
      = ⟨c, some (if c.name.isSome then names else names.after runs.length)⟩ := by
  induction runs generalizing names with
  | nil =>
      rw [List.length_nil, NameSource.after, ite_self]
      rfl
  | cons ops rest ih =>
      rw [generateAll_cons]
      refine (ih _).trans ?_
      cases hname : c.name with
      | none =>
          have hnext : (c.nextName names).2 = names.next.2 := by rw [Config.nextName, hname]
          rw [hnext]
          rfl
      | some name =>
          have hnext : (c.nextName names).2 = names := by rw [Config.nextName, hname]
          rw [hnext]
          rfl

/-- A run is that of any generator whose next name is the one that the run took. -/
theorem response_of_generateAll {runs : List (List Operation)} {i : Nat} {ops : List Operation}
    (h : runs[i]? = some ops) {fresh : NameSource} (hfresh : c.name = none → fresh.next.1 = (names.after i).next.1) :
    (generateAll runs ⟨c, some names⟩).1[i]? = some (response ⟨c, some fresh⟩ ops) := by
  induction runs generalizing names i with
  | nil => cases h
  | cons first rest ih =>
      rw [generateAll_cons]
      cases i with
      | zero =>
          obtain rfl := Option.some.inj h
          have hname : (c.nextName names).1 = (c.nextName fresh).1 ∧ c.checkName names = c.checkName fresh := by
            cases hnone : c.name with
            | none =>
                rw [Config.nextName, Config.nextName, Config.checkName, Config.checkName, hnone, hfresh hnone]
                exact ⟨rfl, rfl⟩
            | some name =>
                rw [Config.nextName, Config.nextName, Config.checkName, Config.checkName, hnone]
                exact ⟨rfl, rfl⟩
          show some (response ⟨c, some names⟩ first) = some (response ⟨c, some fresh⟩ first)
          rw [response_eq, response_eq, hname.1, hname.2]
      | succ i =>
          refine ih h ?_
          intro hnone
          have hnext : (c.nextName names).2 = names.next.2 := by rw [Config.nextName, hnone]
          rw [hnext]
          exact hfresh hnone

variable {g g' : Generator} {ops : List Operation} {p q : Program}

/-- Where no program is opened there is nothing but the error. -/
theorem unopened_run {e : ProgramError} (h : g.openNext.1 = .error e) (ops : List Operation) :
    (g.generate ops).1 = .error e ∧ g.left ops = none := by
  rw [generate_eq, left, h]
  exact ⟨rfl, rfl⟩

/-- Where one is, the answer and what is left are those of its run. -/
theorem opened_run (h : g.openNext.1 = .ok p) (ops : List Operation) :
    let r := (do Writing.carryOutAll ops; Writing.eval : Writing String).run p
    (g.generate ops).1 = Writing.answer r ∧ g.left ops = some (Writing.left r) := by
  rw [fst_generate, left, h]
  exact ⟨rfl, rfl⟩

theorem alikeButName_of_unopened {e : ProgramError} (h : g.openNext.1 = .error e) (h' : g'.openNext.1 = .error e)
    (he : ¬ e.IsTitled) : AlikeButName g g' ops := by
  obtain ⟨hanswer, hleft⟩ := unopened_run h ops
  obtain ⟨hanswer', hleft'⟩ := unopened_run h' ops
  refine ⟨by rw [hanswer, hanswer'], ?_, by rw [hleft, hleft']; rfl, ?_, ?_⟩
  · intro e' he'
    obtain rfl := Except.error.inj (hanswer.symm.trans he')
    rw [ProgramError.retitled_of_not_isTitled he, hanswer']
  · intro p hp
    cases hleft'.symm.trans hp
  · intro listing hlisting
    cases hanswer'.symm.trans hlisting

theorem alikeButName_of_opened (h : g.openNext.1 = .ok p) (h' : g'.openNext.1 = .ok q) (hb : p.Bears g'.nextName q) :
    AlikeButName g g' ops := by
  have hruns := Writing.abreast_listed hb ops
  have hg := opened_run h ops
  have hg' := opened_run h' ops
  generalize (do Writing.carryOutAll ops; Writing.eval : Writing String).run p = r at hruns hg
  generalize (do Writing.carryOutAll ops; Writing.eval : Writing String).run q = r' at hruns hg'
  obtain ⟨hanswer, hleft⟩ := hg
  obtain ⟨hanswer', hleft'⟩ := hg'
  cases hruns with
  | @ok listing listing' p q hlast =>
      obtain ⟨hlisting, hbears⟩ := hlast
      refine ⟨⟨fun _ => ⟨_, hanswer'⟩, fun _ => ⟨_, hanswer⟩⟩, ?_, ?_, ?_, ?_⟩
      · intro e he
        cases hanswer.symm.trans he
      · rw [hleft, hleft']
        exact congrArg (fun q : Program => some q.lines) hbears.same
      · intro q' hq'
        obtain rfl := Option.some.inj (hleft'.symm.trans hq')
        exact hbears.second
      · intro text htext
        obtain rfl := Except.ok.inj (hanswer'.symm.trans htext)
        rw [hleft', hlisting]
        rfl
  | @error e e' p q hlast =>
      obtain ⟨rfl, hbears⟩ := hlast
      refine ⟨?_, ?_, ?_, ?_, ?_⟩
      · rw [hanswer, hanswer']
        simp [Writing.answer]
      · intro e' he
        obtain rfl := Except.error.inj (hanswer.symm.trans he)
        exact hanswer'
      · rw [hleft, hleft']
        exact congrArg (fun q : Program => some q.lines) hbears.same
      · intro q' hq'
        obtain rfl := Option.some.inj (hleft'.symm.trans hq')
        exact hbears.second
      · intro text htext
        cases hanswer'.symm.trans htext

/-- **Names are not looked at.**  Two sources of names make a difference to the second entry
alone, as long as both have names that can be written, or neither has. -/
theorem alikeButName {names names' : NameSource} (h : c.checkName names' = c.checkName names) (ops : List Operation) :
    AlikeButName ⟨c, some names⟩ ⟨c, some names'⟩ ops := by
  have hopen (names : NameSource) : (⟨c, some names⟩ : Generator).openNext.1 = (do
      c.checkName names
      c.admits c.raise
      c.admits c.approach
      return Program.opened c (nextName ⟨c, some names⟩)) := by
    rw [openNext_eq, Program.openNamed_eq]
    rfl
  have hg := hopen names
  have hg' := hopen names'
  rw [h] at hg'
  cases hname : c.checkName names with
  | error e =>
      rw [hname] at hg hg'
      exact alikeButName_of_unopened hg hg' (Config.not_isTitled_of_checkName hname)
  | ok _ =>
      rw [hname] at hg hg'
      cases hraise : c.admits c.raise with
      | error e =>
          rw [hraise] at hg hg'
          exact alikeButName_of_unopened hg hg' (Config.not_isTitled_of_admits hraise)
      | ok _ =>
          cases happroach : c.admits c.approach with
          | error e =>
              rw [hraise, happroach] at hg hg'
              exact alikeButName_of_unopened hg hg' (Config.not_isTitled_of_admits happroach)
          | ok _ =>
              rw [hraise, happroach] at hg hg'
              exact alikeButName_of_opened hg hg' (Program.bears_opened c _ _)

/-- **Runs are independent up to the name.**  Whatever comes of its runs, a generator takes one
name from its source for each of them, and none where its configuration has a name.  The answer to
a run and the notes on it are those of any other generator of the configuration whose next name is
the one that the run took, and another name makes a difference to the second entry of the buffer
alone, if it can be written where the first one can: a configuration with a name has no other, and
without a limit of digits every name can be written. -/
theorem generateAll_independent (c : Config) (names : NameSource) (runs : List (List Operation)) :
    let g : Generator := ⟨c, some names⟩
    (g.generateAll runs).2 = ⟨c, some (if c.name.isSome then names else names.after runs.length)⟩
    ∧ (generateAll runs g).1.length = runs.length
    ∧ (∀ i ops, runs[i]? = some ops → ∀ fresh : NameSource,
        (c.name = none → fresh.next.1 = (names.after i).next.1) →
        (g.generateAll runs).1[i]? = some (response ⟨c, some fresh⟩ ops))
    ∧ (∀ names', c.checkName names' = c.checkName names → ∀ ops, AlikeButName g ⟨c, some names'⟩ ops)
    ∧ (c.name.isSome = true ∨ DigitLimit.most = none → ∀ names', c.checkName names' = .ok ()) := by
  intro g
  refine ⟨snd_generateAll c names runs, length_generateAll runs g, ?_, fun _ => alikeButName, ?_⟩
  · intro i ops hops fresh hfresh
    exact response_of_generateAll hops hfresh
  · rintro (hname | hmost) names'
    · rw [Config.checkName, if_pos hname]
    · exact Config.checkName_of_unlimited hmost c names'

end Generator

end

/-- A run that is refused behind its end, and the run after it. -/
theorem Generator.generateAll_independent_of_late :
    let g : Generator := ⟨Config.standard, some (.sequential 1)⟩
    let late : List Operation := [.terminate (.bool false), .stopSpindle]
    (match (g.generate late).1 with
      | .error (.notOpen (.text name) .closed) => name == "001"
      | _ => false) = true
    ∧ (g.generateAll [late, []]).2 = ⟨Config.standard, some (.sequential 3)⟩
    ∧ (g.generateAll [late, []]).1[1]? = some (Generator.response ⟨Config.standard, some (.fixed (.text "002"))⟩ []) := by
  intro g late
  obtain ⟨hnames, -, hruns, -⟩ := generateAll_independent Config.standard (.sequential 1) [late, []]
  refine ⟨by decide, hnames, hruns 1 [] rfl (.fixed (.text "002")) ?_⟩
  intro _
  have hdigits : Decimal.paddedText 3 2 = "002" := by decide
  exact congrArg Value.text hdigits.symm

end PartProgram
