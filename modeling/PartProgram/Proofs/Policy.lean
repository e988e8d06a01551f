/-
The strict policy only refuses.

What a strict reading makes of settings, a permissive one makes of them too: the strict
policy asks questions on the way, and where it is content the permissive one has nothing to
pass over.  After that the policy is looked at in one place, where a motion judges its
numbers, and there being permissive means not to look.

So a program under the strict policy and the same program under the permissive one keep in
step.  `Lenient` says this of an action: where it goes through, it goes through on the
relaxed program, with the same answer and leaving the same program but for the policy.  What
fails under the strict policy may well go through without it, and nothing is said of that.
The property is closed under the ways in which actions are put together, so each action
needs no more than its parts, and no invariant of the programs they run on.
-/
import PartProgram.Proofs.StrictNumbers

namespace PartProgram

section

variable [DigitLimit]

/-! ### Settings under two policies

For each reading what it makes under the strict policy it makes under the permissive one; where
the strict one asks for something the permissive one falls back or looks away, and it has no
reason to where the strict one was content.
-/

namespace Config

/-- The configuration is what the settings mean, setting by setting. -/
structure Reads (s : Settings) (c : Config) : Prop where
  given : c.given = s
  name : readName (s .name) = .ok c.name
  unit : readUnit c.strict (s .unit) = .ok c.unit
  mode : readMode c.strict (s .positioning) = .ok c.mode
  feedrate : readNumber c.strict .feedrate (.int 50) (s .feedrate) = .ok c.feedrate
  clearance : readNumber c.strict .clearance (.int 10) (s .clearance) = .ok c.clearance
  start : readPosition c.strict .start c.clearance (s .start) = .ok c.start
  finish : readPosition c.strict .finish c.clearance (s .finish) = .ok c.finish
  lineNumbering : c.lineNumbering = readNumbering (s .lineNumbering)
  strict : c.strict = (s .strict).isTrue

/-- Settings make a configuration exactly when it is what they mean. -/
theorem ofSettings_eq_ok {s : Settings} {c : Config} : ofSettings s = .ok c ↔ c.Reads s := by
  constructor
  · intro h
    obtain ⟨name, hname, h⟩ := bind_eq_ok.mp h
    obtain ⟨unit, hunit, h⟩ := bind_eq_ok.mp h
    obtain ⟨mode, hmode, h⟩ := bind_eq_ok.mp h
    obtain ⟨feedrate, hfeedrate, h⟩ := bind_eq_ok.mp h
    obtain ⟨clearance, hclearance, h⟩ := bind_eq_ok.mp h
    obtain ⟨start, hstart, h⟩ := bind_eq_ok.mp h
    obtain ⟨finish, hfinish, h⟩ := bind_eq_ok.mp h
    obtain rfl := Except.ok.inj h
    exact ⟨rfl, hname, hunit, hmode, hfeedrate, hclearance, hstart, hfinish, rfl, rfl⟩
  · intro h
    have hmade : Config.mk s c.name c.start c.finish c.unit c.mode c.feedrate c.clearance
        (readNumbering (s .lineNumbering)) (s .strict).isTrue = c := by
      rw [← h.lineNumbering, ← h.strict, ← h.given]
    obtain ⟨-, hname, hunit, hmode, hfeedrate, hclearance, hstart, hfinish, -, hstrict⟩ := h
    rw [hstrict] at hunit hmode hfeedrate hclearance hstart hfinish
    exact bind_eq_ok.mpr ⟨_, hname, bind_eq_ok.mpr ⟨_, hunit, bind_eq_ok.mpr ⟨_, hmode, bind_eq_ok.mpr ⟨_, hfeedrate,
      bind_eq_ok.mpr ⟨_, hclearance, bind_eq_ok.mpr ⟨_, hstart, bind_eq_ok.mpr ⟨_, hfinish,
        congrArg Except.ok hmade⟩⟩⟩⟩⟩⟩⟩

variable {strict : Bool} {v : Value}

/-- What counts as true is read as a name where it can be written. -/
theorem readName_of_written (hv : v.isTrue = true) (h : v.isWritten = true) :
    readName v = .ok (some (Text.upper v.plain)) := by
  rw [readName, hv, h]
  rfl

/-- A unit is read where it can be written and is known, or need not be. -/
theorem readUnit_eq_ok {unit : String} : readUnit strict v = .ok unit ↔
    v.isWritten = true ∧ (strict = true → LengthUnit.isKnown (unitText v) = true) ∧ unitText v = unit := by
  rw [readUnit]
  cases v.isWritten <;> cases strict <;> cases LengthUnit.isKnown (unitText v) <;> simp

/-- No policy refuses a unit that is known. -/
theorem readUnit_of_known {token unit : String} (h : unitText (.text token) = unit)
    (hknown : LengthUnit.isKnown unit = true) : readUnit strict (.text token) = .ok unit := by
  rw [← h] at hknown
  exact readUnit_eq_ok.mpr ⟨rfl, fun _ => hknown, h⟩

theorem readUnit_relaxed {unit : String} (h : readUnit strict v = .ok unit) : readUnit false v = .ok unit := by
  obtain ⟨hwritten, -, hunit⟩ := readUnit_eq_ok.mp h
  exact readUnit_eq_ok.mpr ⟨hwritten, fun hstrict => Bool.noConfusion hstrict, hunit⟩

/-- No policy refuses the name of a mode. -/
theorem readMode_of_token {token : String} {mode : DistanceMode} (hopen : token.isEmpty = false)
    (h : DistanceMode.ofToken? (Text.lower (Text.trim token)) = some mode) :
    readMode strict (.text token) = .ok mode := by
  have hno : ¬ isOpen (.text token) = true := by
    rw [isOpen, hopen]
    exact Bool.false_ne_true
  rw [readMode, if_neg hno, DistanceMode.ofValue?_text h]

theorem readMode_relaxed {mode : DistanceMode} (h : readMode strict v = .ok mode) : readMode false v = .ok mode := by
  unfold readMode at h ⊢
  by_cases ho : isOpen v = true
  · rw [if_pos ho] at h ⊢
    exact h
  · rw [if_neg ho] at h ⊢
    cases hv : DistanceMode.ofValue? v with
    | ok m =>
        rw [hv] at h
        exact h
    | error e =>
        rw [hv] at h
        cases strict with
        | true => cases h
        | false => exact h

section

omit [DigitLimit]

theorem readNumber_relaxed {setting : Setting} {standard number : Value}
    (h : readNumber strict setting standard v = .ok number) : readNumber false setting standard v = .ok number := by
  unfold readNumber at h ⊢
  by_cases hv : v.isNull = true
  · rw [if_pos hv] at h ⊢
    exact h
  · rw [if_neg hv] at h ⊢
    cases hc : checkNumber strict setting.key v with
    | ok _ =>
        rw [hc] at h
        exact h
    | error e =>
        rw [hc] at h
        cases h

/-- No policy refuses a finite number. -/
theorem readNumber_of_finite {setting : Setting} {standard : Value} (h : v.numberFault? = none) :
    readNumber strict setting standard v = .ok v := by
  have hnull : ¬ v.isNull = true := by
    intro hv
    cases v with
    | null => cases h
    | _ => cases hv
  have hcheck : checkNumber strict setting.key v = .ok () := by
    rw [checkNumber, Value.checkFinite, h]
    exact ite_self _
  rw [readNumber, if_neg hnull, hcheck]
  rfl

theorem checkAxes_permissive (setting : Setting) (p : Position) : checkAxes false setting p = .ok () :=
  forM_eq_ok.mpr fun _ _ => rfl

end

theorem readPosition_relaxed {setting : Setting} {clearance : Value} {p : Position}
    (h : readPosition strict setting clearance v = .ok p) : readPosition false setting clearance v = .ok p := by
  unfold readPosition at h ⊢
  by_cases hv : v.isNull = true
  · rw [if_pos hv] at h ⊢
    exact h
  · rw [if_neg hv] at h ⊢
    cases hp : Position.ofValue? v with
    | error e =>
        rw [hp] at h
        cases h
    | ok q =>
        rw [hp] at h
        simp only [checkAxes_permissive]
        cases hc : checkAxes strict setting q with
        | ok _ =>
            simp only [hc] at h
            exact h
        | error e =>
            simp only [hc] at h
            cases h

/-- The configuration under the permissive policy, from the given settings. -/
def relaxed (given : Settings) (c : Config) : Config := { c with given, strict := false }

/-- What a strict reading makes of settings, a permissive one makes of them too. -/
theorem Reads.relaxed {s : Settings} {c : Config} (h : c.Reads s) (hv : v.isTrue = false) :
    (c.relaxed (s.put .strict v)).Reads (s.put .strict v) where
  given := rfl
  name := h.name
  unit := readUnit_relaxed h.unit
  mode := readMode_relaxed h.mode
  feedrate := readNumber_relaxed h.feedrate
  clearance := readNumber_relaxed h.clearance
  start := readPosition_relaxed h.start
  finish := readPosition_relaxed h.finish
  lineNumbering := h.lineNumbering
  strict := hv.symm

/-- What a strict reading accepts leaves a permissive one nothing to pass over. -/
theorem Reads.notes_relaxed {s : Settings} {c : Config} (h : c.Reads s) (hc : c.strict = true) (v : Value) :
    notes (s.put .strict v) = [] := by
  have hunit : unitNotes (s .unit) = [] := if_pos ((readUnit_eq_ok.mp h.unit).2.1 hc)
  have hmode : modeNotes (s .positioning) = [] := by
    have hread := h.mode
    unfold readMode at hread
    unfold modeNotes
    by_cases ho : isOpen (s .positioning) = true
    · rw [if_pos ho]
    · rw [if_neg ho] at hread ⊢
      cases hv : DistanceMode.ofValue? (s .positioning) with
      | ok m => rfl
      | error e =>
          rw [hv, hc] at hread
          cases hread
  have hsame : ∀ k, k ≠ Setting.strict → s.put .strict v k = s k := fun k hk => if_neg hk
  rw [notes, hsame .name (by decide), hsame .unit (by decide), hsame .positioning (by decide), h.name,
    readUnit_relaxed h.unit, hunit, hmode]
  exact ite_self _

end Config

/-! ### Actions under two policies

`Eases` compares two actions, since where the program is looked at an action goes on with what
it has seen, the policy included.  For an action that does not look at the policy both are the
same, and that is `Lenient`.
-/

/-- The program under the permissive policy. -/
def Program.relaxed (given : Settings) (p : Program) : Program := { p with config := p.config.relaxed given }

omit [DigitLimit] in
theorem Program.relaxed_append (given : Settings) (line : String) (p : Program) :
    (p.append line).relaxed given = (p.relaxed given).append line := by
  rw [append_eq, append_eq]
  rfl

namespace Writing

/-- Where the first action goes through, the second goes through on the relaxed program, with
the same answer and leaving the same program but for the policy. -/
def Eases {α : Type} (given : Settings) (m n : Writing α) : Prop :=
  ∀ ⦃p a q⦄, m.run p = .ok a q → n.run (p.relaxed given) = .ok a (q.relaxed given)

/-- What goes through goes through under the permissive policy, to the same effect. -/
def Lenient {α : Type} (given : Settings) (m : Writing α) : Prop := Eases given m m

namespace Eases

variable {given : Settings} {α β : Type}

omit [DigitLimit]

theorem pure (a : α) : Eases given (Pure.pure a) (Pure.pure a) := by
  intro p b q h
  obtain ⟨rfl, rfl⟩ := EStateM.Result.ok.inj h
  rfl

theorem throw (e : ProgramError) (n : Writing α) : Eases given (MonadExcept.throw e) n := by
  intro p a q h
  cases h

theorem bind {m n : Writing α} {f g : α → Writing β} (hm : Eases given m n) (hf : ∀ a, Eases given (f a) (g a)) :
    Eases given (m >>= f) (n >>= g) := by
  intro p b q h
  rw [EStateM.run_bind] at h ⊢
  cases hrun : m.run p with
  | error e r =>
      rw [hrun] at h
      cases h
  | ok a r =>
      rw [hrun] at h
      rw [hm hrun]
      exact hf a h

theorem get_bind {f g : Program → Writing α} (h : ∀ p, Eases given (f p) (g (p.relaxed given))) :
    Eases given (get >>= f) (get >>= g) := fun p _ _ hrun => h p hrun

/-- An action that looks at the program but not at the policy. -/
theorem look {f : Program → Writing α} (hsame : ∀ p : Program, f (p.relaxed given) = f p)
    (h : ∀ p, Lenient given (f p)) : Lenient given (get >>= f) := by
  refine get_bind fun p => ?_
  rw [hsame]
  exact h p

theorem modify {f : Program → Program} (hf : ∀ p : Program, (f p).relaxed given = f (p.relaxed given)) :
    Eases given (modify f : Writing Unit) (modify f) := by
  intro p a q h
  obtain rfl := (EStateM.Result.ok.inj h).2
  rw [hf]
  rfl

theorem set (p : Program) : Eases given (set p : Writing Unit) (set (p.relaxed given)) := by
  intro q a r h
  obtain rfl := (EStateM.Result.ok.inj h).2
  rfl

theorem ite {c : Prop} [Decidable c] {m n m' n' : Writing α} (hm : Eases given m m') (hn : Eases given n n') :
    Eases given (if c then m else n) (if c then m' else n') := by
  split
  · exact hm
  · exact hn

theorem discard {m n : Writing α} (hm : Eases given m n) : Eases given (discard m) (discard n) := by
  intro p _ q h
  rw [run_discard] at h ⊢
  cases hrun : m.run p with
  | error e r =>
      rw [hrun] at h
      cases h
  | ok a r =>
      rw [hrun] at h
      obtain rfl := (EStateM.Result.ok.inj h).2
      rw [hm hrun]

theorem forM {f : β → Writing Unit} (hf : ∀ b, Lenient given (f b)) (l : List β) : Lenient given (l.forM f) := by
  induction l with
  | nil => exact Eases.pure ()
  | cons b rest ih => exact (hf b).bind fun _ => ih

end Eases

/-! ### The actions one by one -/

variable {given : Settings}

section

omit [DigitLimit]

theorem lenient_add (line : String) : Lenient given (add line) := by
  refine Eases.look (fun _ => rfl) fun p => Eases.ite ?_ ?_
  · exact (Eases.throw _ _).bind fun _ => Eases.modify (Program.relaxed_append given line)
  · exact Eases.modify (Program.relaxed_append given line)

theorem lenient_appendStray (v : Value) : Lenient given (modify (Program.appendStray v)) := Eases.modify fun _ => rfl

theorem lenient_addValue (v : Value) : Lenient given (addValue v) := by
  have hstray : Lenient given (do
      let p ← get
      if p.listing.isSome then throw (.evaluated p.name)
      if p.nextNumber ≠ 0 then throw (.line ⟨v.kindName⟩)
      modify (Program.appendStray v)) := by
    refine Eases.look (fun _ => rfl) fun p => Eases.ite ((Eases.throw _ _).bind fun _ => ?_) ?_
    · exact Eases.ite ((Eases.throw _ _).bind fun _ => lenient_appendStray v) (lenient_appendStray v)
    · exact Eases.ite ((Eases.throw _ _).bind fun _ => lenient_appendStray v) (lenient_appendStray v)
  cases v with
  | text line => exact lenient_add line
  | _ => exact hstray

theorem lenient_requireOpen : Lenient given requireOpen :=
  Eases.look (fun _ => rfl) fun _ => Eases.ite (Eases.throw _ _) (Eases.pure ())

theorem lenient_emitMode (m : DistanceMode) : Lenient given (emitMode m) :=
  (lenient_add _).bind fun _ => Eases.modify fun _ => rfl

end

theorem lenient_setMode (v : Value) : Lenient given (setMode v) := by
  refine lenient_requireOpen.bind fun _ => ?_
  cases DistanceMode.ofValue? v with
  | ok m => exact lenient_emitMode m
  | error e => exact Eases.throw _ _

omit [DigitLimit] in
/-- The one place where the policy is looked at: the permissive one does not look. -/
theorem lenient_checkNumber (label : String) (v : Value) : Lenient given (checkNumber label v) := by
  refine Eases.get_bind fun p => ?_
  show Eases given _ (Pure.pure ())
  split
  · cases v.checkFinite label with
    | ok _ => exact Eases.pure ()
    | error e => exact Eases.throw _ _
  · exact Eases.pure ()

theorem lenient_moveTo (code : PreparatoryCode) (target : Position) (feed : Value) :
    Lenient given (moveTo code target feed) := by
  refine Eases.look (fun _ => rfl) fun p => ?_
  refine (Eases.forM (fun (axis, v) => lenient_checkNumber axis v) _).bind fun _ => ?_
  refine (lenient_checkNumber "F" _).bind fun _ => ?_
  split
  · exact lenient_add _
  · exact Eases.throw _ _

theorem lenient_move (code : PreparatoryCode) (position feed : Value) : Lenient given (move code position feed) := by
  refine lenient_requireOpen.bind fun _ => ?_
  cases Position.ofValue? position with
  | ok target => exact lenient_moveTo code target feed
  | error e => exact Eases.throw _ _

theorem lenient_moveMill (height : Value) : Lenient given (moveMill height) :=
  lenient_requireOpen.bind fun _ => lenient_moveTo _ _ _

theorem lenient_raiseMill (depth : Value) : Lenient given (raiseMill depth) :=
  Eases.look (fun _ => rfl) fun _ => lenient_moveMill _

omit [DigitLimit] in
theorem lenient_switch (code : MiscellaneousCode) : Lenient given (switch code) :=
  lenient_requireOpen.bind fun _ => lenient_add _

theorem lenient_terminate (force : Value) : Lenient given (terminate force) := by
  refine lenient_requireOpen.bind fun _ => Eases.ite ?_ ?_
  · exact (lenient_add _).bind fun _ => Eases.modify fun _ => rfl
  · refine (lenient_switch _).bind fun _ => (lenient_switch _).bind fun _ => ?_
    refine (lenient_raiseMill _).bind fun _ => (lenient_add _).bind fun _ => ?_
    exact Eases.modify fun _ => rfl

theorem lenient_eval : Lenient given eval := by
  refine Eases.look (fun _ => rfl) fun p => ?_
  cases p.listing with
  | some listing => exact Eases.pure listing
  | none =>
      refine Eases.ite ((lenient_terminate _).bind fun _ => ?_) ?_
      -- Ended before or just now, the program is closed by the same steps.
      all_goals
        refine (lenient_add _).bind fun _ => Eases.get_bind fun p => ?_
        rw [show (p.relaxed given).strays = p.strays from rfl]
        cases p.strays[0]? with
        | some stray => exact (Eases.throw _ _).bind fun _ => (Eases.set p.sealed).bind fun _ => Eases.pure p.listed
        | none => exact (Eases.set p.sealed).bind fun _ => Eases.pure p.listed

theorem lenient_perform (c : Call) : Lenient given c.perform := by
  cases c with
  | setMode v => exact (lenient_setMode v).bind fun _ => Eases.pure none
  | rapidMove position feed => exact (lenient_move _ position feed).bind fun _ => Eases.pure none
  | linearMove position feed => exact (lenient_move _ position feed).bind fun _ => Eases.pure none
  | dropMill depth => exact (lenient_moveMill depth).bind fun _ => Eases.pure none
  | raiseMill depth => exact (lenient_raiseMill depth).bind fun _ => Eases.pure none
  | startSpindle clockwise => exact (lenient_switch _).bind fun _ => Eases.pure none
  | stopSpindle => exact (lenient_switch _).bind fun _ => Eases.pure none
  | startCoolant flood => exact (lenient_switch _).bind fun _ => Eases.pure none
  | stopCoolant => exact (lenient_switch _).bind fun _ => Eases.pure none
  | terminate force => exact (lenient_terminate force).bind fun _ => Eases.pure none
  | add line => exact (lenient_add line).bind fun _ => Eases.pure none
  | addValue v => exact (lenient_addValue v).bind fun _ => Eases.pure none
  | eval => exact lenient_eval.bind fun listing => Eases.pure (some listing)
  | assign a => exact (Eases.modify fun _ => by cases a <;> rfl).bind fun _ => Eases.pure none

theorem lenient_carryOut (op : Operation) : Lenient given (carryOut op) := by
  unfold carryOut
  split
  · exact (lenient_perform _).discard
  · exact Eases.modify fun _ => rfl
  · exact Eases.pure ()

/-- **A list of operations** that goes through goes through under the permissive policy. -/
theorem lenient_carryOutAll (ops : List Operation) : Lenient given (carryOutAll ops) := Eases.forM lenient_carryOut ops

theorem lenient_begin : Lenient given begin := by
  refine Eases.look (fun _ => rfl) fun p => ?_
  refine (lenient_add _).bind fun _ => (lenient_add _).bind fun _ => (lenient_add _).bind fun _ => ?_
  refine (lenient_emitMode _).bind fun _ => (lenient_raiseMill _).bind fun _ => ?_
  exact (lenient_moveTo _ _ _).bind fun _ => Eases.modify fun _ => rfl

end Writing

/-! ### Programs and listings -/

namespace Program

theorem openNamed_relaxed {c : Config} {name : String} {p : Program} (given : Settings)
    (h : openNamed c name = .ok p) : openNamed (c.relaxed given) name = .ok (p.relaxed given) := by
  have hblank : blank (c.relaxed given) name = (blank c name).relaxed given := rfl
  unfold openNamed at h ⊢
  cases hrun : Writing.begin.run (blank c name) with
  | error e q =>
      rw [hrun] at h
      cases h
  | ok _ q =>
      rw [hrun] at h
      obtain rfl := Except.ok.inj h
      rw [hblank, Writing.lenient_begin hrun]

theorem openNext_relaxed {c : Config} {names : NameSource} {p : Program} (given : Settings)
    (h : (openNext c names).1 = .ok p) : (openNext (c.relaxed given) names).1 = .ok (p.relaxed given) := by
  rw [openNext_eq] at h ⊢
  obtain ⟨_, hname, hopen⟩ := bind_eq_ok.mp h
  exact bind_eq_ok.mpr ⟨_, hname, openNamed_relaxed given hopen⟩

end Program

namespace Generator

/-- The generator under the permissive policy. -/
def relaxed (given : Settings) (g : Generator) : Generator := { g with config := g.config.relaxed given }

theorem openNext_relaxed {g g' : Generator} {p : Program} (given : Settings) (h : g.openNext = (.ok p, g')) :
    (g.relaxed given).openNext = (.ok (p.relaxed given), g'.relaxed given) := by
  obtain ⟨c, names⟩ := g
  cases names with
  | none =>
      obtain ⟨hp, rfl⟩ := Prod.mk.inj h
      exact congrArg (·, _) (Program.openNext_relaxed given hp)
  | some names =>
      obtain ⟨hp, rfl⟩ := Prod.mk.inj h
      exact congrArg (·, _) (Program.openNext_relaxed given hp)

/-- What a generator answers it answers under the permissive policy, saying the same and going
through the same names. -/
theorem generate_relaxed {g g' : Generator} {ops : List Operation} {listing : String} {said : List Note}
    (given : Settings) (h : g.generate ops = (.ok listing, said, g')) :
    (g.relaxed given).generate ops = (.ok listing, said, g'.relaxed given) := by
  unfold generate build at h ⊢
  rcases hopen : g.openNext with ⟨made, after⟩
  cases made with
  | error e => simp [hopen] at h
  | ok p =>
      simp only [hopen] at h
      simp only [openNext_relaxed given hopen]
      cases hrun : (Writing.carryOutAll ops).run p with
      | error e q => simp [hrun] at h
      | ok _ q =>
          simp only [hrun] at h
          simp only [Writing.lenient_carryOutAll ops hrun]
          cases heval : Writing.eval.run q with
          | error e r => simp [heval] at h
          | ok answered r =>
              simp only [heval] at h
              simp only [Writing.lenient_eval heval]
              obtain ⟨hlisting, hrest⟩ := Prod.mk.inj h
              obtain ⟨rfl, rfl⟩ := Prod.mk.inj hrest
              rw [hlisting]
              rfl

/-- **The strict policy only refuses.**  Settings that a strict reading accepts make the same
configuration under the permissive policy, but for the policy itself, and nothing is passed
over.  What a generator of the strict one answers, the permissive one answers as well: the
same listing, the same notes on the way, and the same names left. -/
theorem generate_of_strict {s : Settings} {c : Config} {names : Option NameSource} {ops : List Operation}
    {listing : String} {v : Value} (hs : (s .strict).isTrue = true) (hv : v.isTrue = false)
    (hc : Config.ofSettings s = .ok c) (h : ((Generator.mk c names).generate ops).1 = .ok listing) :
    ∃ c', Config.ofSettings (s.put .strict v) = .ok c'
      ∧ c' = { c with given := s.put .strict v, strict := false }
      ∧ Config.notes (s.put .strict v) = []
      ∧ ((Generator.mk c' names).generate ops).1 = .ok listing
      ∧ ((Generator.mk c' names).generate ops).2.1 = ((Generator.mk c names).generate ops).2.1
      ∧ ((Generator.mk c' names).generate ops).2.2.names = ((Generator.mk c names).generate ops).2.2.names := by
  have hreads := Config.ofSettings_eq_ok.mp hc
  have hstrict : c.strict = true := hreads.strict.trans hs
  rcases hrun : (Generator.mk c names).generate ops with ⟨answer, said, after⟩
  obtain rfl : answer = .ok listing := by rw [← h, hrun]
  have hrelaxed := generate_relaxed (s.put .strict v) hrun
  refine ⟨c.relaxed (s.put .strict v), Config.ofSettings_eq_ok.mpr (hreads.relaxed hv), rfl,
    hreads.notes_relaxed hstrict v, ?_, ?_, ?_⟩
  · exact congrArg (·.1) hrelaxed
  · exact congrArg (·.2.1) hrelaxed
  · exact congrArg (·.2.2.names) hrelaxed

end Generator

end

/-- A drop and a switch to relative coordinates in inches, with a name from a source. -/
theorem Generator.generate_of_strict_of_inches :
    let s : Settings := ((Settings.standard.put .strict (.bool true)).put .unit (.text " INCH ")).put .positioning
      (.text "Relative")
    let c : Config := { Config.standard with given := s, unit := "inch", mode := .relative, strict := true }
    let names : Option NameSource := some (.fixed (.text "a1"))
    let ops : List Operation := [.dropMill (.int (-2)), .setMode .absolute]
    let listing := "%\nOA1\nN001 G20\nN002 G91\nN003 G00 Z10 F50\nN004 G00 X0 Y0 Z10 F50\nN005 G00 Z-2 F50\n"
      ++ "N006 G90\nN007 M05\nN008 M09\nN009 G00 Z10 F50\nN010 M30\n%"
    (s .strict).isTrue = true ∧ (Value.bool false).isTrue = false ∧ Config.ofSettings s = .ok c
    ∧ ((Generator.mk c names).generate ops).1 = .ok listing
    ∧ ∃ c', Config.ofSettings (s.put .strict (.bool false)) = .ok c'
      ∧ ((Generator.mk c' names).generate ops).1 = .ok listing := by
  intro s c names ops listing
  have hc : Config.ofSettings s = .ok c := by
    have hunit : Config.unitText (.text " INCH ") = "inch" := by decide +kernel
    have htoken : DistanceMode.ofToken? (Text.lower (Text.trim "Relative")) = some .relative := by decide +kernel
    refine Config.ofSettings_eq_ok.mpr ⟨rfl, rfl, ?_, ?_, ?_, ?_, rfl, rfl, rfl, rfl⟩
    · exact Config.readUnit_of_known hunit (by decide)
    · exact Config.readMode_of_token (by decide) htoken
    · exact Config.readNumber_of_finite (v := .int 50) (by decide +kernel)
    · exact Config.readNumber_of_finite (v := .int 10) (by decide +kernel)
  have hanswer : ((Generator.mk c names).generate ops).1 = .ok listing := by
    have hverdict : (Generator.mk c names).verdict ops = .ok () := verdict_of_isFinite rfl (by decide +kernel)
    have hends : Operation.EndsOnce ops := Operation.endsOnce_of_dropLast (by simp [ops, Operation.isTerminate])
    rw [generate_of_endsOnce _ hends, hverdict]
    exact congrArg Except.ok (by decide +kernel)
  obtain ⟨c', hmade, -, -, hsame, -⟩ := generate_of_strict (v := .bool false) rfl rfl hc hanswer
  exact ⟨rfl, rfl, hc, hanswer, c', hmade, hsame⟩

end PartProgram
