/-
What a new program begins with.

The opening is six lines, and the last two of them are motions: up to the clearance and to
the start.  The unit of a new program is a text, so nothing but the policy can stop these, and
numbers that cannot be written.  Under the permissive policy nothing else does.
-/
import PartProgram.Proofs.Motion
import PartProgram.Program.Opening

namespace PartProgram

/-! ### The lines of the opening -/

variable [DigitLimit]

namespace Program

/-- The program with the first four lines of the opening, as they stand before any motion.
-/
def headed (p : Program) : Program :=
  ((((p.append openMarker).append p.title).append (LengthUnit.code p.config.unit).toWord).append
    p.mode.code.toWord).inMode p.mode

omit [DigitLimit] in
theorem IsOpen.headed {p : Program} (h : p.IsOpen) : p.headed.IsOpen :=
  ⟨(((h.append _).append _).append _).append _ |>.phase, (((h.append _).append _).append _).append _ |>.listing⟩

@[simp]
theorem motion_headed (p : Program) : p.headed.motion = p.motion := by
  show ((((p.append _).append _).append _).append _).motion = p.motion
  simp only [motion_append]

@[simp]
theorem millMotion_headed (p : Program) : p.headed.millMotion = p.millMotion := by
  funext height
  rw [millMotion, motion_headed, millMotion]

omit [DigitLimit] in
@[simp]
theorem clearance_headed (p : Program) : p.headed.clearance = p.clearance := by
  simp only [headed, inMode, append_eq]

/-- What is said of a program that has been opened. -/
def openedNote (p : Program) : String :=
  "Opened program " ++ p.title ++ " (unit=" ++ p.unit.plain ++ ", positioning=" ++ p.mode.text ++ ")"

end Program

namespace Writing

/-- The opening writes the head, raises the mill and moves to the start. -/
theorem run_begin {p : Program} (ho : p.IsOpen) :
    begin.run p = match p.millMotion p.clearance with
      | .error e => .error e p.headed
      | .ok up => match p.motion .rapid p.config.start p.feedrate with
        | .error e => .error e (p.headed.append up)
        | .ok there => .ok () (((p.headed.append up).append there).note [p.name, p.unit] p.openedNote) := by
  have h1 := ho.append openMarker
  have h2 := h1.append p.title
  have h3 := h2.append (LengthUnit.code p.config.unit).toWord
  have hmode : (emitMode p.mode).run (((p.append openMarker).append p.title).append
      (LengthUnit.code p.config.unit).toWord) = .ok () p.headed := by
    rw [emitMode, EStateM.run_bind, run_add_of_listing h3.listing]
    rfl
  have hraise := run_raiseMill_to_clearance ho.headed
  rw [Program.millMotion_headed, Program.clearance_headed] at hraise
  rw [begin, EStateM.run_bind, EStateM.run_get]
  simp only [EStateM.run_bind, run_add_of_listing ho.listing, run_add_of_listing h1.listing,
    run_add_of_listing h2.listing, hmode, hraise]
  cases p.millMotion p.clearance with
  | error e => rfl
  | ok up =>
      have hup := ho.headed.append up
      simp only [run_moveTo, Program.motion_append, Program.motion_headed]
      cases p.motion .rapid p.config.start p.feedrate with
      | error e => rfl
      | ok there =>
          simp only [run_add_of_listing hup.listing]
          rfl

end Writing

/-! ### New programs

Which name the next program has is up to the configuration and the source, and everything else
to the configuration.  So a new program can be written down, `opened`, and opening one comes to
asking whether its name and its two motions are let through.
-/

namespace Config

/-- Without a limit of digits every name can be written. -/
theorem checkName_of_unlimited (h : DigitLimit.most = none) (c : Config) (names : NameSource) :
    c.checkName names = .ok () := by
  rw [checkName, Value.checkWritten, Value.isWritten_of_unlimited h]
  exact ite_self _

/-- Random names are texts. -/
theorem checkName_of_seeded (c : Config) (g : Twister) : c.checkName (.seeded g) = .ok () := by
  rw [checkName, NameSource.next]
  generalize g.belowThousand Twister.patience = drawn
  exact ite_self _

/-- The motion up to the clearance. -/
def raise (c : Config) : Motion := ⟨.rapid, ⟨.null, .null, c.clearance⟩, c.feedrate⟩

/-- The motion to the start. -/
def approach (c : Config) : Motion := ⟨.rapid, c.start, c.feedrate⟩

/-- The line of a motion under the unit of the configuration. -/
def motionText (c : Config) (m : Motion) : String := m.text (LengthUnit.factor c.unit)

/-- The lines that a program of the configuration begins with. -/
def headLines (c : Config) (name : String) : List String :=
  ["%", "O" ++ name, if c.unit = "in" ∨ c.unit = "inch" then "G20" else "G21",
    match c.mode with
    | .absolute => "G90"
    | .relative => "G91",
    c.motionText c.raise, c.motionText c.approach]

omit [DigitLimit] in
theorem headLines_eq (c : Config) (name : String) : c.headLines name =
    [openMarker, nameLetter ++ name, (LengthUnit.code c.unit).toWord, c.mode.code.toWord, c.motionText c.raise,
      c.motionText c.approach] := by
  have hunit : (LengthUnit.code c.unit).toWord = if c.unit = "in" ∨ c.unit = "inch" then "G20" else "G21" := by
    rw [LengthUnit.code]
    split <;> rfl
  have hmode : c.mode.code.toWord = match c.mode with
      | .absolute => "G90"
      | .relative => "G91" := by
    cases c.mode <;> rfl
  rw [hunit, hmode]
  rfl

end Config

namespace Program

/-- The program is written under the settings of a configuration, and there is nothing but
lines in its buffer. -/
structure Follows (c : Config) (name : String) (p : Program) : Prop where
  config : p.config = c
  name : p.name = .text name
  unit : p.unit = .text c.unit
  feedrate : p.feedrate = c.feedrate
  clearance : p.clearance = c.clearance
  strays : p.strays = #[]

namespace Follows

variable {c : Config} {name : String} {p : Program}

section

omit [DigitLimit]

theorem append (h : p.Follows c name) (line : String) : (p.append line).Follows c name := by
  rw [append_eq]
  exact ⟨h.config, h.name, h.unit, h.feedrate, h.clearance, h.strays⟩

theorem inMode (h : p.Follows c name) (m : DistanceMode) : (p.inMode m).Follows c name :=
  ⟨h.config, h.name, h.unit, h.feedrate, h.clearance, h.strays⟩

theorem withNotes (h : p.Follows c name) (notes : Array Note) : { p with notes }.Follows c name :=
  ⟨h.config, h.name, h.unit, h.feedrate, h.clearance, h.strays⟩

end

theorem note (h : p.Follows c name) (told : List Value) (message : String) : (p.note told message).Follows c name :=
  h.withNotes _

theorem ended (h : p.Follows c name) (force : Value) : (p.ended force).Follows c name :=
  ⟨h.config, h.name, h.unit, h.feedrate, h.clearance, h.strays⟩

end Follows

omit [DigitLimit] in
theorem follows_blank (c : Config) (name : String) : (blank c name).Follows c name :=
  ⟨rfl, rfl, rfl, rfl, rfl, rfl⟩

omit [DigitLimit] in
theorem isOpen_blank (c : Config) (name : String) : (blank c name).IsOpen := ⟨rfl, rfl⟩

/-- The new program of a configuration. -/
def opened (c : Config) (name : String) : Program :=
  (((blank c name).headed.append (c.motionText c.raise)).append (c.motionText c.approach)).note
    [.text name, .text c.unit] (blank c name).openedNote

/-- A new program comes about exactly when its two motions are let through. -/
theorem openNamed_eq (c : Config) (name : String) : openNamed c name = do
    c.admits c.raise
    c.admits c.approach
    return opened c name := by
  have hfeed : (blank c name).feedOf c.feedrate = c.feedrate := ite_self _
  have hup : (blank c name).millMotion c.clearance = (c.admits c.raise).map fun _ => c.motionText c.raise :=
    motion_of_text (u := c.unit) rfl .rapid _ .null
  have hthere : (blank c name).motion .rapid c.start c.feedrate
      = (c.admits c.approach).map fun _ => c.motionText c.approach := by
    rw [motion_of_text (u := c.unit) rfl, hfeed]
    rfl
  rw [openNamed, Writing.run_begin (isOpen_blank c name)]
  simp only [show (blank c name).clearance = c.clearance from rfl, show (blank c name).config = c from rfl,
    show (blank c name).feedrate = c.feedrate from rfl, hup, hthere]
  cases c.admits c.raise with
  | error e => rfl
  | ok _ =>
      cases c.admits c.approach with
      | error e => rfl
      | ok _ => rfl

theorem openNamed_eq_ok {c : Config} {name : String} {p : Program} (h : openNamed c name = .ok p) :
    c.admits c.raise = .ok () ∧ c.admits c.approach = .ok () ∧ p = opened c name := by
  rw [openNamed_eq] at h
  cases hc : c.admits c.raise with
  | error e => rw [hc] at h; cases h
  | ok _ =>
      cases hs : c.admits c.approach with
      | error e => rw [hc, hs] at h; cases h
      | ok _ =>
          rw [hc, hs] at h
          exact ⟨rfl, rfl, (Except.ok.inj h).symm⟩

/-- The program behind a name that the source has next. -/
theorem openNext_eq (c : Config) (names : NameSource) :
    (openNext c names).1 = (do c.checkName names; openNamed c (c.nextName names).1) := rfl

/-- A program is opened where its name can be written and its two motions are let through. -/
theorem openNext_of_admits {c : Config} {names : NameSource} (hname : c.checkName names = .ok ())
    (hraise : c.admits c.raise = .ok ()) (happroach : c.admits c.approach = .ok ()) :
    (openNext c names).1 = .ok (opened c (c.nextName names).1) := by
  rw [openNext_eq, hname, openNamed_eq, hraise, happroach]
  rfl

/-- Finite numbers are let through under either policy. -/
theorem openNext_of_isFinite {c : Config} {names : NameSource} (hname : c.checkName names = .ok ())
    (hraise : c.raise.IsFinite) (happroach : c.approach.IsFinite) :
    (openNext c names).1 = .ok (opened c (c.nextName names).1) :=
  openNext_of_admits hname (Config.admits_of_isFinite hraise) (Config.admits_of_isFinite happroach)

theorem opened_of_openNext {c : Config} {names : NameSource} {p : Program}
    (h : (openNext c names).1 = .ok p) : p = opened c (c.nextName names).1 := by
  rw [openNext_eq] at h
  obtain ⟨-, -, h⟩ := bind_eq_ok.mp h
  exact (openNamed_eq_ok h).2.2

theorem isOpen_opened (c : Config) (name : String) : (opened c name).IsOpen :=
  (((isOpen_blank c name).headed.append _).append _).note _ _

theorem follows_opened (c : Config) (name : String) : (opened c name).Follows c name := by
  have hhead : (blank c name).headed.Follows c name :=
    (((((follows_blank c name).append _).append _).append _).append _).inMode _
  exact ((hhead.append _).append _).note _ _

/-- The buffer of a new program holds the lines of the opening. -/
theorem grown_opened (c : Config) (name : String) : Grown (blank c name) (c.headLines name) (opened c name) := by
  have hhead : Grown (blank c name)
      [openMarker, nameLetter ++ name, (LengthUnit.code c.unit).toWord, c.mode.code.toWord]
      (blank c name).headed :=
    ((((Grown.append _ openMarker).snoc (nameLetter ++ name)).snoc _).snoc c.mode.code.toWord).inMode c.mode
  rw [Config.headLines_eq]
  exact ((hhead.snoc _).snoc _).note _ _

end Program

end PartProgram
