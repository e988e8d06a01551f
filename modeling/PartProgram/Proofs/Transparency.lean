/-
Numbering lines changes nothing but lines.

A program with numbers and the same program without them keep in step.  The program without
numbers can be told from the one with them: `bare` takes the number words out of the buffer
and puts the counter to rest, and what a call gives on a program it gives on the bare program,
with the same faults and leaving the bare of what it left.  Rule by rule, this comes down to
one thing.  An entry that was numbered tells its line, so adding a line and taking the numbers
out may change places.  Nothing else that a call looks at is touched by `bare`: not the
settings, not the phase, not what is said along the way, and of the listing only its text.

The one call that looks at the counter itself adds what is no text, and it is left out here.
-/
import PartProgram.Proofs.Ending

namespace PartProgram

open PartProgram.Numbering

section

variable [DigitLimit]

/-! ### Settings with and without numbers -/

namespace Config

/-- The configuration without numbers, from the given settings. -/
def unnumbered (given : Settings) (c : Config) : Config := { c with given, lineNumbering := false }

/-- What settings are read as does not depend on whether lines are numbered. -/
theorem Reads.unnumbered {s : Settings} {c : Config} {v w : Value} (h : c.Reads (s.put .lineNumbering v))
    (hw : readNumbering w = false) :
    (c.unnumbered (s.put .lineNumbering w)).Reads (s.put .lineNumbering w) where
  given := rfl
  name := h.name
  unit := h.unit
  mode := h.mode
  feedrate := h.feedrate
  clearance := h.clearance
  start := h.start
  finish := h.finish
  lineNumbering := hw.symm
  strict := h.strict

/-- What it takes to open a program has nothing to do with its numbers. -/
theorem canOpen_unnumbered {given : Settings} {c : Config} {names : NameSource} :
    (c.unnumbered given).CanOpen names ↔ c.CanOpen names :=
  ⟨fun h => ⟨h.name, h.opening⟩, fun h => ⟨h.name, h.opening⟩⟩

end Config

/-! ### Programs with and without numbers

The bare program has the lines of the other without their numbers, and it is not changed by a
history of its own: it is computed from the other at any time.  So no invariant ties the two
together, and a rule for calls has only to be shown to change places with `bare`.
-/

namespace Program

variable {p : Program}

/-- The program without the numbers of its lines. -/
def bare (given : Settings) (p : Program) : Program :=
  { p with
    config := p.config.unnumbered given
    lines := (p.lines.toList.map lineOf).toArray
    nextNumber := 0
    listing := p.listing.map fun _ => "\n".intercalate (p.lines.toList.map lineOf) }

/-- A program that numbers what it is still given. -/
structure Numbers (p : Program) : Prop where
  nextNumber : p.nextNumber ≠ 0
  listing : p.listing = none

omit [DigitLimit] in
theorem Numbers.append (h : p.Numbers) (line : String) : (p.append line).Numbers := by
  refine ⟨?_, (listing_append line p).trans h.listing⟩
  rw [nextNumber_append]
  exact numberAfter_ne_zero h.nextNumber [line]

omit [DigitLimit] in
theorem Numbers.inMode (h : p.Numbers) (m : DistanceMode) : (p.inMode m).Numbers := ⟨h.nextNumber, h.listing⟩

theorem Numbers.ended (h : p.Numbers) (force : Value) : (p.ended force).Numbers := ⟨h.nextNumber, h.listing⟩

section

omit [DigitLimit]

theorem Numbers.stopped (h : p.Numbers) : p.stopped.Numbers := (h.append _).append _

theorem Numbers.headed (h : p.Numbers) : p.headed.Numbers :=
  ((((h.append _).append _).append _).append _).inMode p.mode

theorem numbers_blank {c : Config} (hc : c.lineNumbering = true) (name : String) : (blank c name).Numbers := by
  refine ⟨?_, rfl⟩
  rw [blank, hc]
  exact Nat.one_ne_zero

end

/-! ### What changes places with taking the numbers out -/

omit [DigitLimit] in
theorem bare_inMode (given : Settings) (m : DistanceMode) (p : Program) :
    (p.inMode m).bare given = (p.bare given).inMode m := rfl

theorem bare_note (given : Settings) (told : List Value) (message : String) (p : Program) :
    (p.note told message).bare given = (p.bare given).note told message := rfl

theorem bare_ended (given : Settings) (force : Value) (p : Program) :
    (p.ended force).bare given = (p.bare given).ended force := rfl

section

omit [DigitLimit]

/-- A line may be added before or after the numbers are taken out. -/
theorem bare_append (given : Settings) (h : p.Numbers) (line : String) :
    (p.append line).bare given = (p.bare given).append line := by
  have hentry : entry 0 line = line := if_neg fun h => h.1 rfl
  have hlines : ((p.append line).lines.toList.map lineOf).toArray = (p.bare given).lines.push (entry 0 line) := by
    rw [append_eq, hentry]
    simp [bare, lineOf_entry h.nextNumber]
  have hlisting : (p.append line).listing = none := (h.append line).listing
  rw [append_eq line (p.bare given)]
  simp only [bare, hlisting, h.listing, Option.map_none] at hlines ⊢
  rw [hlines, append_eq]
  rfl

theorem bare_stopped (given : Settings) (h : p.Numbers) : p.stopped.bare given = (p.bare given).stopped := by
  rw [stopped, bare_append given (h.append _), bare_append given h]
  rfl

theorem bare_headed (given : Settings) (h : p.Numbers) : p.headed.bare given = (p.bare given).headed := by
  have h1 := h.append openMarker
  have h2 := h1.append p.title
  have h3 := h2.append (LengthUnit.code p.config.unit).toWord
  rw [headed, bare_inMode, bare_append given h3, bare_append given h2, bare_append given h1, bare_append given h]
  rfl

end

theorem bare_sealed (given : Settings) (p : Program) : p.sealed.bare given = (p.bare given).sealed := by
  have hsize : (p.bare given).lines.size = p.lines.size := by simp [bare]
  rw [sealed, sealed, hsize]
  rfl

omit [DigitLimit] in
theorem listing_bare_eq_none (given : Settings) (hl : p.listing = none) : (p.bare given).listing = none := by
  rw [bare, hl]
  rfl

omit [DigitLimit] in
theorem isOpen_bare (given : Settings) (ho : p.IsOpen) : (p.bare given).IsOpen :=
  ⟨ho.phase, listing_bare_eq_none given ho.listing⟩

/-- A new program without numbers is the bare one. -/
theorem bare_opened {c : Config} (hc : c.lineNumbering = true) (given : Settings) (name : String) :
    (opened c name).bare given = opened (c.unnumbered given) name := by
  have hblank := numbers_blank hc name
  have hbare : (blank c name).bare given = blank (c.unnumbered given) name := rfl
  rw [opened, bare_note, bare_append given (hblank.headed.append _), bare_append given hblank.headed,
    bare_headed given hblank, hbare]
  rfl

end Program

namespace Call

variable {given : Settings} {d : Call} {p q : Program} {answer : Except ProgramError (Option String)}

/-- Lines are numbered for good. -/
theorem Gives.nextNumber_ne_zero (h : d.Gives p answer q) (hn : p.nextNumber ≠ 0) : q.nextNumber ≠ 0 := by
  induction h with
  | written ho hline => exact (Program.Numbers.append ⟨hn, ho.listing⟩ _).nextNumber
  | forced ho hf => exact (Program.Numbers.append ⟨hn, ho.listing⟩ _).nextNumber
  | ended ho hf hup =>
      have hstopped := Program.Numbers.stopped ⟨hn, ho.listing⟩
      exact (((hstopped.append _).append _).ended _).nextNumber
  | stuck ho hf hup => exact (Program.Numbers.stopped ⟨hn, ho.listing⟩).nextNumber
  | added hc hl => exact (Program.Numbers.append ⟨hn, hl⟩ _).nextNumber
  | sealed hp hl hs => exact (Program.Numbers.append ⟨hn, hl⟩ _).nextNumber
  | unlisted hp hl hs => exact (Program.Numbers.append ⟨hn, hl⟩ _).nextNumber
  | unended ho h ih => exact ih hn
  | finished ho h h' ih ih' => exact ih' (ih hn)
  | assigned a => cases a <;> exact hn
  | _ => exact hn

/-- What a call answers on a bare program: the same, but for the text of a listing. -/
def bareAnswer (given : Settings) (q : Program) :
    Except ProgramError (Option String) → Except ProgramError (Option String) :=
  Except.map (Option.map fun _ => (q.bare given).listed)

/-- **Calls do not look at numbers.**  What a call gives on a program it gives on the bare
program. -/
theorem Gives.bare (h : d.Gives p answer q) (ht : d.AddsText) (hn : p.nextNumber ≠ 0) :
    d.Gives (p.bare given) (bareAnswer given q answer) (q.bare given) := by
  induction h with
  | refused hc hp => exact .refused hc hp
  | written ho hline =>
      rw [Program.bare_inMode, Program.bare_append given ⟨hn, ho.listing⟩]
      exact .written (Program.isOpen_bare given ho) hline
  | faulty ho hline => exact .faulty (Program.isOpen_bare given ho) hline
  | forced ho hf =>
      rw [Program.bare_ended, Program.bare_append given ⟨hn, ho.listing⟩]
      exact .forced (Program.isOpen_bare given ho) hf
  | ended ho hf hup =>
      have hstopped := Program.Numbers.stopped ⟨hn, ho.listing⟩
      rw [Program.bare_ended, Program.bare_append given (hstopped.append _), Program.bare_append given hstopped,
        Program.bare_stopped given ⟨hn, ho.listing⟩]
      exact .ended (Program.isOpen_bare given ho) hf hup
  | stuck ho hf hup =>
      rw [Program.bare_stopped given ⟨hn, ho.listing⟩]
      exact .stuck (Program.isOpen_bare given ho) hf hup
  | added hc hl =>
      rw [Program.bare_append given ⟨hn, hl⟩]
      exact .added hc (Program.listing_bare_eq_none given hl)
  | stray hc hv hl hn' => exact absurd hn' hn
  | unnumbered hc hv hl hn' =>
      obtain ⟨line, rfl⟩ := ht _ hc
      exact absurd rfl (hv line)
  | late hc hl => exact .late hc (Option.isSome_map.trans hl)
  | repeated hl => exact .repeated (by simp only [Program.bare, hl, Option.map_some, Program.listed])
  | @sealed p hp hl hs =>
      have hstep : (p.append openMarker).sealed.bare given = ((p.bare given).append openMarker).sealed := by
        rw [Program.bare_sealed, Program.bare_append given ⟨hn, hl⟩]
      have hgives : eval.Gives (p.bare given) (.ok (some ((p.bare given).append openMarker).listed))
          ((p.bare given).append openMarker).sealed := .sealed hp (Program.listing_bare_eq_none given hl) hs
      rw [bareAnswer, hstep]
      exact hgives
  | unlisted hp hl hs =>
      rw [Program.bare_append given ⟨hn, hl⟩]
      exact .unlisted hp (Program.listing_bare_eq_none given hl) hs
  | unended ho h ih => exact .unended (Program.isOpen_bare given ho) (ih (addsText_terminate _) hn)
  | finished ho h h' ih ih' =>
      exact .finished (Program.isOpen_bare given ho) (ih (addsText_terminate _) hn) (ih' ht (h.nextNumber_ne_zero hn))
  | assigned a => cases a <;> exact .assigned _

theorem run_bare (given : Settings) (hp : p.Consistent) (ht : d.AddsText) (hn : p.nextNumber ≠ 0) :
    d.run (p.bare given) = (bareAnswer given (d.run p).2 (d.run p).1, (d.run p).2.bare given) :=
  ((gives_run hp d).bare ht hn).run_eq

/-- A history leads the bare program to the bare of what it leads the program to. -/
theorem runAll_bare (given : Settings) (hp : p.Consistent) (hn : p.nextNumber ≠ 0) {calls : List Call}
    (h : ∀ d ∈ calls, d.AddsText) : runAll calls (p.bare given) = (runAll calls p).bare given := by
  induction calls generalizing p with
  | nil => rfl
  | cons d rest ih =>
      have hnumber := (gives_run hp d).nextNumber_ne_zero hn
      have hstep : runAll (d :: rest) (p.bare given) = runAll rest (d.run (p.bare given)).2 := rfl
      rw [hstep, run_bare given hp (h d List.mem_cons_self) hn]
      exact ih (recorded_run hp d).consistent hnumber fun b hb => h b (List.mem_cons_of_mem d hb)

end Call

/-! ### Pairs of programs

For programs that number their lines from one on the bare program is the one that was opened
without numbers.  What can be said of the pair at any time is read off `bare`, and `Unnumbers`
collects it.
-/

/-- The program `q` is the program `p` but for the numbers of the lines, and the next call
finds no difference. -/
structure Program.Unnumbers (p q : Program) : Prop where
  phase : q.phase = p.phase
  /-- Without the number words the lines are the same. -/
  lines : q.lines.toList = p.lines.toList.map lineOf
  /-- With them they are the entries of the numbered program. -/
  keeps : p.Keeps true q.lines.toList
  nextNumber : q.nextNumber = 0
  /-- Calls fail alike and go through alike; a listing is that of the program itself. -/
  answer : ∀ d : Call, d.AddsText → (d.run q).1 = (d.run p).1.map (Option.map fun _ => (d.run q).2.listed)

namespace Call

variable {p : Program}

/-- A program that numbers its lines from one on, beside the bare program. -/
theorem unnumbers_bare (given : Settings) (hp : p.Consistent) {raw : List String}
    (hlines : p.lines.toList = entries 1 raw) (hnext : p.nextNumber = numberAfter 1 raw) :
    p.Unnumbers (p.bare given) := by
  have hn : p.nextNumber ≠ 0 := by
    rw [hnext]
    exact numberAfter_ne_zero Nat.one_ne_zero raw
  have hbare : (p.bare given).lines.toList = p.lines.toList.map lineOf := rfl
  refine ⟨rfl, hbare, ?_, rfl, ?_⟩
  · rw [hbare, hlines, map_lineOf_entries Nat.one_ne_zero]
    exact Program.keeps_of_entries hlines hnext
  · intro d hd
    rw [run_bare given hp hd hn]
    rfl

/-- **Numbers are transparent.**  Settings that differ in the numbering of lines alone make two
configurations, of which both open programs or neither does, which is up to what can be written
at all.  As long as texts are added no history of calls tells the programs apart: they are in
the same phase, the same calls fail with the same faults, and the buffer of the one is that of
the other without the number words. -/
theorem unnumbers_runAll {s : Settings} {v w : Value} {c : Config} (hv : Config.readNumbering v = true)
    (hw : Config.readNumbering w = false) (hc : Config.ofSettings (s.put .lineNumbering v) = .ok c)
    (names : NameSource) :
    ∃ c', Config.ofSettings (s.put .lineNumbering w) = .ok c'
      ∧ ((∃ p, (Program.openNext c names).1 = .ok p) ↔ c.CanOpen names)
      ∧ ((∃ p', (Program.openNext c' names).1 = .ok p') ↔ c.CanOpen names)
      ∧ (DigitLimit.most = none → c.CanOpen names)
      ∧ (c.CanOpen names → ∃ p p', (Program.openNext c names).1 = .ok p ∧ (Program.openNext c' names).1 = .ok p'
        ∧ ∀ calls : List Call, (∀ d ∈ calls, d.AddsText) → (runAll calls p).Unnumbers (runAll calls p')) := by
  have hreads := Config.ofSettings_eq_ok.mp hc
  have hnumbered : c.lineNumbering = true := hreads.lineNumbering.trans hv
  have hc' := Config.ofSettings_eq_ok.mpr (hreads.unnumbered hw)
  have hopens := openNext_of_ofSettings hc names
  have hopens' := (openNext_of_ofSettings hc' names).trans Config.canOpen_unnumbered
  refine ⟨_, hc', hopens, hopens', fun h => Config.canOpen_of_unlimited h c names, fun hcan => ?_⟩
  obtain ⟨p, hp⟩ := hopens.mpr hcan
  obtain ⟨p', hp'⟩ := hopens'.mpr hcan
  refine ⟨p, p', hp, hp', fun calls hcalls => ?_⟩
  have hnames : (c.unnumbered (s.put .lineNumbering w)).nextName names = c.nextName names := rfl
  rw [Program.opened_of_openNext hp, Program.opened_of_openNext hp', hnames, ← Program.bare_opened hnumbered]
  generalize (c.nextName names).1 = name
  have ho := Program.isOpen_opened c name
  have hstart : (Program.blank c name).nextNumber = 1 := by
    rw [Program.blank, hnumbered]
    rfl
  have hopened := Program.grown_opened c name
  have hn : (Program.opened c name).nextNumber ≠ 0 := by
    rw [hopened.nextNumber, hstart]
    exact numberAfter_ne_zero Nat.one_ne_zero _
  have hrecorded := recorded_runAll ho.consistent calls
  have hgrown := hopened.trans hrecorded.toGrown
  have hlines := hgrown.lines
  have hnext := hgrown.nextNumber
  rw [hstart] at hlines hnext
  rw [runAll_bare _ ho.consistent hn hcalls]
  exact unnumbers_bare _ hrecorded.consistent hlines hnext

end Call

end

/-- A pause, a cut, a forced end, and a directive that comes too late. -/
theorem Call.unnumbers_runAll_of_cut :
    let s : Settings := Settings.standard.put .name (.text "7")
    let c : Config := { Config.standard with given := s.put .lineNumbering (.bool true), name := some "7" }
    let calls : List Call := [.add "M00", .linearMove (.tuple [.int 1]) .null, .terminate (.bool true),
      .stopSpindle, .eval]
    Config.readNumbering (.bool true) = true ∧ Config.readNumbering (.bool false) = false
    ∧ Config.ofSettings (s.put .lineNumbering (.bool true)) = .ok c
    ∧ ∃ c' p p', Config.ofSettings (s.put .lineNumbering (.bool false)) = .ok c'
      ∧ (Program.openNext c .standard).1 = .ok p ∧ (Program.openNext c' .standard).1 = .ok p'
      ∧ (runAll calls p).Unnumbers (runAll calls p') := by
  intro s c calls
  have hc : Config.ofSettings (s.put .lineNumbering (.bool true)) = .ok c := by
    have hname : Text.upper (Text.trim "7") = "7" := by decide +kernel
    have hunit : Config.unitText (.text "cm") = "cm" := by decide +kernel
    refine Config.ofSettings_eq_ok.mpr ⟨rfl, ?_, ?_, rfl, rfl, rfl, rfl, rfl, rfl, rfl⟩
    · exact congrArg (fun n => Except.ok (some n)) hname
    · exact Config.readUnit_of_known hunit (by decide)
  have hcalls : ∀ d ∈ calls, d.AddsText := by
    intro d hd
    simp only [calls, List.mem_cons, List.not_mem_nil, or_false] at hd
    rcases hd with rfl | rfl | rfl | rfl | rfl
    · exact addsText_add "M00"
    · exact addsText_of_none rfl
    · exact addsText_terminate _
    · exact addsText_of_none rfl
    · exact addsText_of_none rfl
  obtain ⟨c', hc', -, -, -, hopens⟩ :=
    unnumbers_runAll (v := .bool true) rfl (w := .bool false) rfl hc .standard
  obtain ⟨p, p', hp, hp', hall⟩ := hopens ⟨rfl, fun _ => by decide +kernel⟩
  exact ⟨rfl, rfl, hc, c', p, p', hc', hp, hp', hall calls hcalls⟩

end PartProgram
