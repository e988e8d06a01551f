/-
Programs can be finished.

Every program that is still open is ended by its evaluation, and the one thing that can go
wrong with an end is the motion that raises the mill.  It is the first motion of the opening
over again, as long as nobody assigns an attribute, and a configuration has been asked about
its numbers when it was made: a strict reading lets through finite ones, and the standard
values and the position over the origin that stand in for what is left open are finite too.
A permissive reading lets through anything, and of numbers that cannot be written the opening
already finds out.  So nothing that a run of calls does can keep a program from its listing.

Attributes that are assigned are asked about by nobody.  Then the mill may be refused its
way, and this is found out with two lines of the end in the buffer already.  Whether an end
that fails leaves things as they were is decided before it begins: by the motion, where the
program is open, and by what stands among the lines that is no text.
-/
import PartProgram.Proofs.Finality
import PartProgram.Proofs.Moves
import PartProgram.Proofs.Policy

namespace PartProgram

section

variable [DigitLimit]

/-! ### The motions of a configuration

A strict reading asks for finite numbers at every place where one is given, and what stands in
for a number that is not given is finite too.  The first motions of a program are made of these
numbers alone, so the policy, which asks for the same again, has nothing to add.
-/

omit [DigitLimit] in
/-- A motion is finite where its target and its feed rate are. -/
theorem Motion.isFinite_of_finite {m : Motion} (ht : ∀ axis ∈ m.target.components, axis.2.numberFault? = none)
    (hf : m.feed.numberFault? = none) : m.IsFinite := by
  intro number hnumber
  rcases List.mem_append.mp hnumber with haxis | hfeed
  · exact ht number haxis
  · rw [List.mem_singleton.mp hfeed]
    exact hf

namespace Config

variable {v number : Value} {setting : Setting}

omit [DigitLimit] in
theorem checkNumber_strict {label : String} : checkNumber true label v = .ok () ↔ v.numberFault? = none := by
  rw [checkNumber, if_pos rfl, Value.checkFinite]
  cases v.numberFault? with
  | none => simp
  | some fault => simp

omit [DigitLimit] in
/-- A strict reading of a number comes to a finite one. -/
theorem finite_of_readNumber {standard : Value} (hs : standard.numberFault? = none)
    (h : readNumber true setting standard v = .ok number) : number.numberFault? = none := by
  unfold readNumber at h
  by_cases hv : v.isNull = true
  · rw [if_pos hv] at h
    obtain rfl := Except.ok.inj h
    exact hs
  · rw [if_neg hv] at h
    cases hcheck : checkNumber true setting.key v with
    | error e =>
        rw [hcheck] at h
        cases h
    | ok _ =>
        rw [hcheck] at h
        obtain rfl := Except.ok.inj h
        exact checkNumber_strict.mp hcheck

/-- A strict reading of a position comes to finite axes. -/
theorem finite_of_readPosition {clearance : Value} (hc : clearance.numberFault? = none) {p : Position}
    (h : readPosition true setting clearance v = .ok p) : ∀ axis ∈ p.components, axis.2.numberFault? = none := by
  intro axis haxis
  unfold readPosition at h
  by_cases hv : v.isNull = true
  · rw [if_pos hv] at h
    obtain rfl := Except.ok.inj h
    have hmem := (List.mem_filter.mp haxis).1
    simp only [List.mem_cons, List.not_mem_nil, or_false] at hmem
    rcases hmem with rfl | rfl | rfl
    · decide +kernel
    · decide +kernel
    · exact hc
  · rw [if_neg hv] at h
    cases hp : Position.ofValue? v with
    | error e =>
        rw [hp] at h
        cases h
    | ok q =>
        cases haxes : checkAxes true setting q with
        | error e =>
            simp only [hp, haxes] at h
            cases h
        | ok _ =>
            simp only [hp, haxes] at h
            obtain rfl := Except.ok.inj h
            exact checkNumber_strict.mp (forM_eq_ok.mp haxes axis haxis)

/-- The two motions of the opening can be written. -/
def WritesOpening (c : Config) : Prop :=
  c.raise.IsWritten (LengthUnit.factor c.unit) ∧ c.approach.IsWritten (LengthUnit.factor c.unit)

instance (c : Config) : Decidable c.WritesOpening :=
  inferInstanceAs (Decidable (c.raise.IsWritten (LengthUnit.factor c.unit)
    ∧ c.approach.IsWritten (LengthUnit.factor c.unit)))

/-- **What settings are read as is let through.**  The strict reading has asked for all that the
motions of the opening are asked for; where a permissive one has not, they must be written. -/
theorem Reads.admits {s : Settings} {c : Config} (h : c.Reads s) :
    (c.admits c.raise = .ok () ∧ c.admits c.approach = .ok ()) ↔ (c.strict = false → c.WritesOpening) := by
  cases hstrict : c.strict with
  | false =>
      rw [admits_of_permissive hstrict, admits_of_permissive hstrict]
      exact ⟨fun h _ => h, fun h => h rfl⟩
  | true =>
      have hfeed := h.feedrate
      have hclearance := h.clearance
      have hstart := h.start
      rw [hstrict] at hfeed hclearance hstart
      have hfeed := finite_of_readNumber (by decide +kernel) hfeed
      have hclearance := finite_of_readNumber (by decide +kernel) hclearance
      have hstart := finite_of_readPosition hclearance hstart
      have hz : ∀ axis ∈ c.raise.target.components, axis.2.numberFault? = none := by
        intro axis haxis
        obtain ⟨hmem, hpresent⟩ := List.mem_filter.mp haxis
        simp only [List.mem_cons, List.not_mem_nil, or_false] at hmem
        rcases hmem with rfl | rfl | rfl
        · cases hpresent
        · cases hpresent
        · exact hclearance
      rw [admits_of_strict hstrict, admits_of_strict hstrict]
      exact ⟨fun _ hpermissive => Bool.noConfusion hpermissive,
        fun _ => ⟨Motion.isFinite_of_finite hz hfeed, Motion.isFinite_of_finite hstart hfeed⟩⟩

end Config

/-- What it takes to open a program of a configuration that was read. -/
structure Config.CanOpen (c : Config) (names : NameSource) : Prop where
  /-- The name can be written. -/
  name : c.checkName names = .ok ()
  /-- So can the opening, about which the strict policy has asked before. -/
  opening : c.strict = false → c.WritesOpening

theorem Config.canOpen_of_unlimited (h : DigitLimit.most = none) (c : Config) (names : NameSource) : c.CanOpen names :=
  ⟨checkName_of_unlimited h c names, fun _ => ⟨Motion.isWritten_of_unlimited h _ _, Motion.isWritten_of_unlimited h _ _⟩⟩

/-- A configuration that settings make opens a program whose name and first motions can be written. -/
theorem openNext_of_ofSettings {s : Settings} {c : Config} (hc : Config.ofSettings s = .ok c) (names : NameSource) :
    (∃ p, (Program.openNext c names).1 = .ok p) ↔ c.CanOpen names := by
  have hadmits := (Config.ofSettings_eq_ok.mp hc).admits
  constructor
  · rintro ⟨p, hp⟩
    obtain ⟨_, hname, hopen⟩ := bind_eq_ok.mp hp
    obtain ⟨hraise, happroach, -⟩ := Program.openNamed_eq_ok hopen
    exact ⟨hname, hadmits.mp ⟨hraise, happroach⟩⟩
  · intro h
    obtain ⟨hraise, happroach⟩ := hadmits.mpr h.opening
    exact ⟨_, Program.openNext_of_admits h.name hraise happroach⟩

/-- What was opened could be written. -/
theorem writesOpening_of_openNext {c : Config} {names : NameSource} {p : Program}
    (h : (Program.openNext c names).1 = .ok p) : c.WritesOpening := by
  obtain ⟨-, -, hopen⟩ := bind_eq_ok.mp h
  obtain ⟨hraise, happroach, -⟩ := Program.openNamed_eq_ok hopen
  exact ⟨(Config.admitsUnder_eq_ok.mp hraise).2, (Config.admitsUnder_eq_ok.mp happroach).2⟩

/-! ### Histories without assignments

Short of assignments a program keeps the settings that it was opened with.  So the motion that
ends it is the one that began it, and the opening has shown that it can be made.
-/

namespace Program.Follows

variable {c : Config} {name : String} {p : Program}

omit [DigitLimit] in
theorem stopped (h : p.Follows c name) : p.stopped.Follows c name := (h.append _).append _

theorem sealed (h : p.Follows c name) : p.sealed.Follows c name :=
  ⟨h.config, h.name, h.unit, h.feedrate, h.clearance, h.strays⟩

/-- Raising the mill is up to the configuration. -/
theorem millMotion (h : p.Follows c name) :
    p.millMotion p.clearance = (c.admits c.raise).map fun _ => c.motionText c.raise := by
  rw [h.clearance]
  exact Writing.motion_of_follows h .rapid _ .null

end Program.Follows

namespace Call

/-- Whether a call assigns an attribute. -/
def isAssignment : Call → Bool
  | assign _ => true
  | _ => false

variable {c : Config} {name : String} {d : Call} {p q : Program} {answer : Except ProgramError (Option String)}

/-- Short of assignments the settings are those of the configuration. -/
theorem Gives.follows (h : d.Gives p answer q) (ht : d.AddsText) (ha : d.isAssignment = false)
    (hf : p.Follows c name) : q.Follows c name := by
  induction h with
  | written ho hline => exact (hf.append _).inMode _
  | forced ho hforced => exact (hf.append _).ended _
  | ended ho hforced hup => exact ((hf.stopped.append _).append _).ended _
  | stuck ho hforced hup => exact hf.stopped
  | added hc hl => exact hf.append _
  | stray hc hv hl hn =>
      obtain ⟨line, rfl⟩ := ht _ hc
      exact absurd rfl (hv line)
  | sealed hp hl hs => exact (hf.append _).sealed
  | unlisted hp hl hs => exact hf.append _
  | unended ho h ih => exact ih (addsText_terminate _) rfl hf
  | finished ho h h' ih ih' => exact ih' ht ha (ih (addsText_terminate _) rfl hf)
  | assigned a => cases ha
  | _ => exact hf

/-- Where the mill may be raised an end goes through. -/
theorem exists_end (ho : p.IsOpen) (hup : ∃ up, p.millMotion p.clearance = .ok up) (force : Value) :
    ∃ q, (terminate force).Gives p (.ok none) q := by
  obtain ⟨up, hup⟩ := hup
  cases hf : force.isTrue with
  | true => exact ⟨_, .forced ho hf⟩
  | false => exact ⟨_, .ended ho hf hup⟩

/-- Where besides nothing but texts is among the lines, there is a listing. -/
theorem exists_listing (hp : p.Consistent) (hs : p.strays = #[])
    (hup : p.phase = .opened → ∃ up, p.millMotion p.clearance = .ok up) :
    ∃ listing q, eval.Gives p (.ok (some listing)) q := by
  by_cases ho : p.phase = .opened
  · obtain ⟨q, hend⟩ := exists_end (hp.isOpen ho) (hup ho) (.bool false)
    obtain ⟨hclosed, hlisting⟩ := closed_of_gives_terminate hend
    have hstrays : q.strays = #[] := (hend.strays (addsText_terminate _)).trans hs
    exact ⟨_, _, .finished (hp.isOpen ho) hend (.sealed hclosed hlisting hstrays)⟩
  · cases hl : p.listing with
    | some listing => exact ⟨_, _, .repeated hl⟩
    | none => exact ⟨_, _, .sealed (Program.closed_of_not_opened ho) hl hs⟩

end Call

end

section

variable [DigitLimit]

namespace Call

/-- Whether a call ends the program or evaluates it. -/
def isEnding : Call → Bool
  | terminate _ | eval => true
  | _ => false

/-- Whether a call is a forced end. -/
def isForced : Call → Bool
  | terminate force => force.isTrue
  | _ => false

end Call

/-! ### Ends that fail

An end that adds lines and then fails has not left things as they were.  There are two ways to
that: the mill cannot be raised when the stops are in the buffer already, and the text of the
buffer cannot be made when the marker is.  Where neither is possible an end that fails was
refused before it did anything.
-/

namespace Program

/-- Every end and every evaluation that fails leaves the program as it was. -/
def AllOrNothing (p : Program) : Prop :=
  ∀ d : Call, d.isEnding = true → ∀ e q, d.run p = (.error e, q) → p.Untouched q

omit [DigitLimit] in
/-- What has grown is not what it was. -/
theorem Grown.not_untouched {p q : Program} {raw : List String} (h : p.Grown raw q) (hraw : raw ≠ []) :
    ¬ p.Untouched q := by
  intro hq
  have hlines := congrArg List.length h.lines
  rw [hq.lines, List.length_append, Numbering.length_entries] at hlines
  have hpos := List.length_pos_iff.mpr hraw
  omega

theorem endLines_ne_nil (p : Program) (forced : Bool) : p.endLines forced ≠ [] := by
  cases forced <;> simp [endLines]

theorem evalLines_ne_nil {p : Program} (hl : p.listing = none) : p.evalLines ≠ [] := by
  rw [evalLines, hl, Option.isSome_none, if_neg Bool.false_ne_true]
  split
  · exact List.append_ne_nil_of_left_ne_nil (p.endLines_ne_nil false) _
  · exact List.cons_ne_nil _ _

end Program

namespace Call

variable {c : Config} {d : Call} {p q : Program}

/-- An end adds to an open program, whether or not it goes through. -/
theorem not_untouched_of_terminate (hp : p.Consistent) (ho : p.phase = .opened) (force : Value) :
    ¬ p.Untouched ((terminate force).run p).2 := by
  have hgrown := (recorded_run hp (terminate force)).toGrown
  rw [accepted, if_pos ho] at hgrown
  exact hgrown.not_untouched (p.endLines_ne_nil _)

/-- An evaluation adds to a program without a listing. -/
theorem not_untouched_of_eval (hp : p.Consistent) (hl : p.listing = none) : ¬ p.Untouched (eval.run p).2 :=
  (recorded_run hp eval).toGrown.not_untouched (Program.evalLines_ne_nil hl)

/-- Where something is no text, there is no listing to come. -/
theorem exists_unlisted (hp : p.Consistent) (hl : p.listing = none) (hs : p.strays ≠ #[])
    (hup : p.phase = .opened → ∃ up, p.millMotion p.clearance = .ok up) : ∃ e q, eval.Gives p (.error e) q := by
  obtain ⟨⟨index, v⟩, hfirst⟩ : ∃ stray, p.strays[0]? = some stray :=
    ⟨_, Array.getElem?_eq_getElem (Array.size_pos_iff.mpr hs)⟩
  by_cases ho : p.phase = .opened
  · obtain ⟨q, hend⟩ := exists_end (hp.isOpen ho) (hup ho) (.bool false)
    obtain ⟨hclosed, hlisting⟩ := closed_of_gives_terminate hend
    rw [← hend.strays (addsText_terminate _)] at hfirst
    exact ⟨_, _, .finished (hp.isOpen ho) hend (.unlisted hclosed hlisting hfirst)⟩
  · exact ⟨_, _, .unlisted (Program.closed_of_not_opened ho) hl hfirst⟩

/-- Ends are all or nothing where none of them that adds something can fail. -/
theorem allOrNothing_iff (hp : p.Consistent) : p.AllOrNothing ↔
    (p.phase = .opened → ∃ up, p.millMotion p.clearance = .ok up) ∧ (p.listing = none → p.strays = #[]) := by
  constructor
  · intro h
    have hup : p.phase = .opened → ∃ up, p.millMotion p.clearance = .ok up := by
      intro ho
      cases hup : p.millMotion p.clearance with
      | ok up => exact ⟨up, rfl⟩
      | error e =>
          have hstuck : (terminate (.bool false)).Gives p (.error e) p.stopped := .stuck (hp.isOpen ho) rfl hup
          have hsame := h _ rfl e _ hstuck.run_eq
          have hadds := not_untouched_of_terminate hp ho (.bool false)
          rw [hstuck.run_eq] at hadds
          exact absurd hsame hadds
    refine ⟨hup, ?_⟩
    intro hl
    by_cases hs : p.strays = #[]
    · exact hs
    · obtain ⟨e, q, hfails⟩ := exists_unlisted hp hl hs hup
      have hsame := h _ rfl e q hfails.run_eq
      have hadds := not_untouched_of_eval hp hl
      rw [hfails.run_eq] at hadds
      exact absurd hsame hadds
  · rintro ⟨hup, hstrays⟩ d hd e q hrun
    cases d with
    | terminate force =>
        by_cases ho : p.phase = .opened
        · obtain ⟨r, hr⟩ := exists_end (hp.isOpen ho) (hup ho) force
          cases hr.run_eq.symm.trans hrun
        · rw [run_of_closed (Program.closed_of_not_opened ho) rfl] at hrun
          obtain rfl := (Prod.mk.inj hrun).2
          exact ⟨rfl, rfl, rfl⟩
    | eval =>
        cases hl : p.listing with
        | some listing => cases (run_eval_of_evaluated hl).symm.trans hrun
        | none =>
            obtain ⟨listing, r, hr⟩ := exists_listing hp (hstrays hl) hup
            cases hr.run_eq.symm.trans hrun
    | _ => cases hd

/-- Where the unit is a text, the mill is refused its way by the policy, or its way cannot be written. -/
theorem exists_millMotion_iff {u : String} (hu : p.unit = .text u) :
    (∃ up, p.millMotion p.clearance = .ok up) ↔
      (p.config.strict = true → p.raise.IsFinite) ∧ p.raise.IsWritten (LengthUnit.factor u) := by
  have hmotion : p.millMotion p.clearance = (p.config.admitsUnder (LengthUnit.factor u) p.raise).map fun _ =>
      p.raise.text (LengthUnit.factor u) := Program.motion_of_text hu .rapid _ .null
  rw [hmotion, ← Config.admitsUnder_eq_ok]
  constructor
  · rintro ⟨up, hup⟩
    obtain ⟨_, hadmitted, -⟩ := map_eq_ok.mp hup
    exact hadmitted
  · intro hadmitted
    exact ⟨_, map_eq_ok.mpr ⟨(), hadmitted, rfl⟩⟩

/-- An end that is not forced stays behind the stops where the mill cannot be raised. -/
theorem run_of_stuck (ho : p.IsOpen) {e : ProgramError} (hup : p.millMotion p.clearance = .error e)
    (hd : d.isEnding = true) (hf : d.isForced = false) : d.run p = (.error e, p.stopped) := by
  cases d with
  | terminate force => exact (Gives.stuck ho hf hup).run_eq
  | eval => exact (Gives.unended ho (.stuck ho rfl hup)).run_eq
  | _ => cases hd

/-- **When ends are all or nothing.**  In a program that was opened and called in any way, an
end that fails leaves things as they were exactly where the mill may be raised or the program
is closed, and there is either a listing or nothing among the lines but texts.  Where texts
are added and the unit is one, what counts are the numbers of the motion that raises the mill:
it must be possible to write them, and under the strict policy they must be finite.  Where the
mill may not be raised, every end that is not forced
leaves the two stops in the buffer of a program that is still open. -/
theorem allOrNothing_of_openNext {names : NameSource} (h : (Program.openNext c names).1 = .ok p) {calls : List Call}
    (hq : runAll calls p = q) :
    (q.AllOrNothing ↔
      (q.phase = .opened → ∃ up, q.millMotion q.clearance = .ok up) ∧ (q.listing = none → q.strays = #[]))
    ∧ ((∀ d ∈ calls, d.AddsText) → ∀ u, q.unit = .text u →
        (q.AllOrNothing ↔ (q.phase = .opened →
          (c.strict = true → q.raise.IsFinite) ∧ q.raise.IsWritten (LengthUnit.factor u))))
    ∧ (q.phase = .opened → ∀ e, q.millMotion q.clearance = .error e →
        (∀ d : Call, d.isEnding = true → d.isForced = false → d.run q = (.error e, q.stopped))
        ∧ q.Grown ["M05", "M09"] q.stopped ∧ q.stopped.phase = .opened) := by
  obtain rfl := Program.opened_of_openNext h
  have ho := Program.isOpen_opened c (c.nextName names).1
  have hconsistent : q.Consistent := hq ▸ (recorded_runAll ho.consistent calls).consistent
  have hiff := allOrNothing_iff hconsistent
  refine ⟨hiff, ?_, ?_⟩
  · intro htexts u hu
    have hstrays : q.strays = #[] := by
      rw [← hq]
      exact strays_runAll ho.consistent (Program.follows_opened c _).strays htexts
    have hconfig : q.config = c := by
      rw [← hq, config_runAll ho.consistent]
      exact (Program.follows_opened c _).config
    have hraise := exists_millMotion_iff hu
    rw [hconfig] at hraise
    rw [hiff, hraise]
    exact ⟨fun h => h.1, fun h => ⟨h, fun _ => hstrays⟩⟩
  · intro hopen e hup
    have hqo := hconsistent.isOpen hopen
    exact ⟨fun d => run_of_stuck hqo hup, q.grown_stopped, hqo.stopped.phase⟩

end Call

end

/-- A clearance that is no number, assigned under the strict policy. -/
theorem Call.allOrNothing_of_openNext_of_nan :
    let c : Config := { Config.standard with name := some "1", strict := true }
    let p := Program.opened c "1"
    let nan : Value := .float (0.0 / 0.0)
    let q := (Assignment.clearance nan).apply p
    (Program.openNext c .standard).1 = .ok p ∧ runAll [.assign (.clearance nan)] p = q ∧ ¬ q.AllOrNothing
    ∧ eval.run q = (.error (.number ⟨"Z", nan, .notFinite⟩), q.stopped) ∧ q.Grown ["M05", "M09"] q.stopped := by
  intro c p nan q
  have h : (Program.openNext c .standard).1 = .ok p :=
    Program.openNext_of_isFinite rfl (by decide +kernel) (by decide +kernel)
  have ho : p.IsOpen := Program.isOpen_opened c "1"
  have hf : p.Follows c "1" := Program.follows_opened c "1"
  clear_value p
  have hup : q.millMotion q.clearance = .error (.number ⟨"Z", nan, .notFinite⟩) := by
    have hunit : q.unit = .text "cm" := hf.unit
    have hconfig : q.config = c := hf.config
    have hnan : nan.numberFault? = some .notFinite := by decide +kernel
    have hjudge : c.judge ("Z", nan) = .error (.number ⟨"Z", nan, .notFinite⟩) := by
      rw [Config.judge, if_pos rfl, Value.checkFinite, hnan, mapError_error]
    have hadmits : c.admitsUnder (LengthUnit.factor "cm") ⟨.rapid, ⟨.null, .null, nan⟩, q.feedOf .null⟩
        = .error (.number ⟨"Z", nan, .notFinite⟩) := by
      show ((c.judge ("Z", nan) >>= fun _ => _) >>= fun _ => _) = _
      rw [hjudge]
      rfl
    show q.motion .rapid ⟨.null, .null, nan⟩ .null = _
    rw [Program.motion_of_text hunit, hconfig, hadmits]
    rfl
  have hq : runAll [.assign (.clearance nan)] p = q := congrArg Prod.snd (Gives.assigned _).run_eq
  obtain ⟨hiff, -, hstuck⟩ := allOrNothing_of_openNext h hq
  obtain ⟨hruns, hgrown, -⟩ := hstuck ho.phase _ hup
  refine ⟨h, hq, ?_, hruns eval rfl rfl, hgrown⟩
  intro hall
  obtain ⟨up, hok⟩ := (hiff.mp hall).1 ho.phase
  cases hup.symm.trans hok

end PartProgram
