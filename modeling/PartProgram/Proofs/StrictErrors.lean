/-
What escapes the strict policy.

Strictness is about saying no: whatever is wrong with a setting or with an argument is to be
refused, in words and as an error of this library.  To refuse a number the policy has to ask
whether it is finite, and the question has a limit of its own.  It goes to the float nearest
to the number, and for an integer that is too large there is none.  And the words have a limit
as well: they repeat the value that is refused, and no integer beyond the limit of digits can
be repeated, in a list or in a map no more than by itself.

The judgement goes through the numbers one after another and stops at the first that is at
fault, so a value of that size escapes when everything before it passes.  For settings that
is what was found first; the name and the unit come before all numbers, and are written
whatever the policy.  For a program it is the first fault of the motion that a directive
makes, or the position that was to be one.  A unit that was assigned and cannot be looked up
is another way out, reached only behind numbers without fault, and an assigned name that
cannot be told is the last, because a closed program tells its name.
-/
import PartProgram.Proofs.Conversion
import PartProgram.Proofs.Overrides
import PartProgram.Proofs.Refusals

namespace PartProgram

section

variable [DigitLimit]

/-- The first number of a motion that is at fault. -/
def Motion.refused? (m : Motion) : Option Value := (m.numbers.map (·.2)).find? fun v => v.numberFault?.isSome

namespace Call

/-- The motion of the mill to a height. -/
def millMotion (p : Program) (height : Value) : Motion := ⟨.rapid, ⟨.null, .null, height⟩, p.feedrate⟩

/-- The motion that a directive makes on a program, none where it makes none or is not given a position. -/
def motion? (p : Program) : Call → Option Motion
  | rapidMove position feed =>
    (Position.ofValue? position).toOption.map fun target => ⟨.rapid, target, p.feedOf feed⟩
  | linearMove position feed =>
    (Position.ofValue? position).toOption.map fun target => ⟨.linear, target, p.feedOf feed⟩
  | dropMill depth => some (millMotion p depth)
  | raiseMill depth => some (millMotion p (if depth.isNull then p.clearance else depth))
  | terminate force => if force.isTrue then none else some (millMotion p p.clearance)
  | _ => none

/-- The position that a directive is given, where it is none. -/
def refusedPosition? : Call → Option Value
  | rapidMove position _ | linearMove position _ =>
    if (Position.ofValue? position).toOption.isNone then some position else none
  | _ => none

/-- The values that the arguments of a directive bring along: the axes of a position, or what is none as a whole. -/
def numbers : Call → List Value
  | rapidMove position feed | linearMove position feed =>
    (Position.ofValue? position).toOption.elim [position] (fun p => [p.x, p.y, p.z]) ++ [feed]
  | dropMill depth | raiseMill depth => [depth]
  | _ => []

/-- How a directive gets out of a strict program with an error that is no refusal. -/
inductive Escapes (d : Call) (q : Program) : Prop where
  /-- The first number of its motion that is at fault is oversize. -/
  | number {m : Motion} {v : Value} (ho : q.phase = .opened) (hm : d.motion? q = some m) (hv : m.refused? = some v)
      (hoversize : v.IsOversize)
  /-- No number is at fault, and the unit was made one that cannot be looked up. -/
  | unit {m : Motion} (ho : q.phase = .opened) (hm : d.motion? q = some m) (hfinite : m.IsFinite)
      (hunit : q.unit.changeable?.isSome = true)
  /-- Its position is none and cannot be told. -/
  | position {v : Value} (ho : q.phase = .opened) (hv : d.refusedPosition? = some v) (hwritten : v.isWritten = false)
  /-- The program is not open, and its name was made one that cannot be told. -/
  | name (hclosed : q.phase ≠ .opened) (hwritten : q.name.isWritten = false)

end Call

/-! ### Judging numbers one after another

A motion that is judged has a number in it, if only its feed rate, and so its unit is looked up.
Behind a judgement that found nothing only the unit can be wrong: numbers without fault can be
written under any factor that a unit has.
-/

section Judging

variable {c : Config} {m : Motion}

/-- A strict judgement of numbers has no words where the first that is at fault is oversize. -/
theorem fails_forM_judge (hc : c.strict = true) (l : List (String × Value)) :
    Fails (·.isRefusal = false) (l.forM c.judge)
      ↔ ∃ v, (l.map (·.2)).find? (fun v => v.numberFault?.isSome) = some v ∧ v.IsOversize := by
  induction l with
  | nil => simp [Fails, pure, Except.pure]
  | cons number rest ih =>
      rw [show (number :: rest).forM c.judge = (c.judge number >>= fun _ => rest.forM c.judge) from rfl, List.map_cons,
        List.find?_cons]
      have hjudge : c.judge number = (number.2.checkFinite number.1).mapError .number := if_pos hc
      rw [hjudge, Value.checkFinite]
      cases hfault : number.2.numberFault? with
      | none => exact ih
      | some fault =>
          show Fails _ (.error (.number ⟨number.1, number.2, fault⟩) : Except ProgramError Unit) ↔ _
          rw [fails_error, ProgramError.isRefusal, NumberError.isRefusal_eq_false hfault]
          simp

omit [DigitLimit] in
theorem isScalable_of_finite {v : Value} (h : v.numberFault? = none) : v.isScalable = true := by
  cases v with
  | int i => rfl
  | float x => rfl
  | _ => cases h

omit [DigitLimit] in
/-- What a value multiplies by as a unit, some text multiplies by. -/
theorem LengthUnit.factorOf_eq_ok {unit : Value} {factor : Nat} (h : factorOf unit = .ok factor) :
    ∃ text, factor = LengthUnit.factor text := by
  obtain ⟨found, -, rfl⟩ := map_eq_ok.mp h
  cases found with
  | none => exact ⟨"mm", rfl⟩
  | some text => exact ⟨text, rfl⟩

/-- There is a word for a finite number unless its unit cannot be looked up. -/
theorem numberWordIn_of_finite {unit v : Value} (hv : v.numberFault? = none) (letter : String) :
    Fails (fun _ => True) (numberWordIn unit letter v) ↔ unit.changeable?.isSome = true := by
  have hfactor : LengthUnit.factorFor unit v = LengthUnit.factorOf unit := if_pos (isScalable_of_finite hv)
  unfold numberWordIn
  rw [hfactor]
  cases hunit : LengthUnit.factorOf unit with
  | ok factor =>
      obtain ⟨text, rfl⟩ := LengthUnit.factorOf_eq_ok hunit
      have hwritten := Value.checkWritten_eq_ok.mpr (Value.isWritten_scale_of_finite hv text)
      have hfits : unit.changeable? = none := by
        unfold LengthUnit.factorOf LengthUnit.lookup? Value.checkKey at hunit
        cases hkind : unit.changeable? with
        | none => rfl
        | some kind =>
            rw [hkind] at hunit
            cases hunit
      rw [hfits]
      refine iff_of_false ?_ (by simp)
      show ¬ Fails _ ((v.scale (LengthUnit.factor text)).checkWritten.mapError WordError.number >>= fun _ => _)
      rw [hwritten]
      exact not_fails_ok _
  | error e =>
      refine iff_of_true ⟨_, rfl, trivial⟩ ?_
      unfold LengthUnit.factorOf LengthUnit.lookup? Value.checkKey at hunit
      cases hkind : unit.changeable? with
      | none =>
          rw [hkind] at hunit
          cases hunit
      | some kind => rfl

/-- A line for finite numbers fails over its unit alone. -/
theorem fails_motionLineIn {unit : Value} (hm : m.IsFinite) :
    Fails (fun _ => True) (motionLineIn m.code unit m.target m.feed) ↔ unit.changeable?.isSome = true := by
  have hword {letter : String} {v : Value} (h : (letter, v) ∈ m.numbers) :
      Fails (fun _ => True) (numberWordIn unit letter v) ↔ unit.changeable?.isSome = true :=
    numberWordIn_of_finite (hm _ h) letter
  have hfeed := hword (List.mem_append_right m.target.components List.mem_cons_self)
  constructor
  · intro h
    rcases fails_bind.mp h with ⟨e, haxes, -⟩ | ⟨axes, -, h⟩
    · obtain ⟨before, axis, after, hsplit, -, hfails⟩ := mapM_eq_error.mp haxes
      have haxis : axis ∈ m.target.components := by
        rw [hsplit]
        exact List.mem_append_right _ List.mem_cons_self
      exact (hword (List.mem_append_left _ haxis)).mp ⟨e, hfails, trivial⟩
    · rcases fails_bind.mp h with hfails | ⟨feed, -, h⟩
      · exact hfeed.mp hfails
      · exact absurd h (not_fails_ok _)
  · intro hunit
    cases haxes : m.target.axisWordsIn unit with
    | error e =>
        refine fails_bind.mpr (Or.inl ?_)
        rw [haxes]
        exact ⟨e, rfl, trivial⟩
    | ok axes => exact fails_bind.mpr (Or.inr ⟨axes, haxes, fails_bind.mpr (Or.inl (hfeed.mpr hunit))⟩)

/-- **What a program has no words for in a motion**: a number that is oversize and comes before any other fault, or a
unit that cannot be looked up. -/
theorem fails_lineFor {p : Program} (hp : p.config.strict = true) :
    Fails (·.isRefusal = false) (p.lineFor m)
      ↔ (∃ v, m.refused? = some v ∧ v.IsOversize) ∨ m.IsFinite ∧ p.unit.changeable?.isSome = true := by
  have hunit : Fails (·.isRefusal = false) ((motionLineIn m.code p.unit m.target m.feed).mapError ProgramError.word)
      ↔ Fails (fun _ => True) (motionLineIn m.code p.unit m.target m.feed) := by
    rw [fails_mapError]
    exact ⟨fun ⟨e, he, _⟩ => ⟨e, he, trivial⟩, fun ⟨e, he, _⟩ => ⟨e, he, rfl⟩⟩
  have hjudged : m.numbers.forM p.config.judge = .ok () ↔ m.IsFinite := by
    rw [forM_eq_ok]
    exact ⟨fun h number hnumber => Config.judge_eq_ok.mp (h number hnumber) hp,
      fun h number hnumber => Config.judge_eq_ok.mpr fun _ => h number hnumber⟩
  rw [Program.lineFor, fails_bind, fails_forM_judge hp, hunit]
  refine or_congr_right ?_
  constructor
  · rintro ⟨_, hok, hfails⟩
    have hm := hjudged.mp hok
    exact ⟨hm, (fails_motionLineIn hm).mp hfails⟩
  · rintro ⟨hm, hlost⟩
    exact ⟨(), hjudged.mpr hm, (fails_motionLineIn hm).mpr hlost⟩

end Judging

/-! ### Directives

A directive can fail over its mode, over its position, or over the motion that it makes, and the
motion is the only one of these that the policy has to do with.  What is wrong with a mode or
with a position is told with the value in the message, and so it can be too long to be told.
-/

namespace Call

variable {p q : Program} {d : Call} {c : Config}

omit [DigitLimit] in
theorem fails_outcome {kind : ProgramError → Prop} (mode : DistanceMode) (r : Except ProgramError String) :
    Fails kind (outcome p mode r).1 ↔ Fails kind r := by
  cases r with
  | ok line => exact ⟨fun h => absurd h (not_fails_ok _), fun h => absurd h (not_fails_ok _)⟩
  | error e => exact fails_error.trans fails_error.symm

omit [DigitLimit] in
theorem toOption_map_eq_some {α β ε : Type} {r : Except ε α} {f : α → β} {b : β} :
    r.toOption.map f = some b ↔ ∃ a, r = .ok a ∧ f a = b := by
  cases r with
  | ok a => simp [Except.toOption]
  | error e => simp [Except.toOption]

theorem motion?_terminate {force : Value} {m : Motion} :
    (terminate force).motion? p = some m ↔ force.isTrue = false ∧ millMotion p p.clearance = m := by
  cases hf : force.isTrue with
  | true => simp [motion?, hf]
  | false => simp [motion?, hf]

/-- A directive that makes a motion fails as the motion does. -/
theorem fails_run_of_motion {kind : ProgramError → Prop} (ho : p.IsOpen) {m : Motion} (h : d.motion? p = some m) :
    Fails kind (d.run p).1 ↔ Fails kind (p.lineFor m) := by
  have hline {code : PreparatoryCode} {target : Position} (feed : Value)
      (hr : d.line? p = some (p.motion code target feed)) :
      Fails kind (d.run p).1 ↔ Fails kind (p.lineFor ⟨code, target, p.feedOf feed⟩) := by
    rw [run_of_open ho hr, fails_outcome, Program.motion_eq]
  have hmove {code : PreparatoryCode} {position feed : Value} (hr : d.line? p = some (p.motionTo code position feed))
      (hm : ∃ target, Position.ofValue? position = .ok target ∧ Motion.mk code target (p.feedOf feed) = m) :
      Fails kind (d.run p).1 ↔ Fails kind (p.lineFor m) := by
    obtain ⟨target, hp, rfl⟩ := hm
    simp only [Program.motionTo, hp] at hr
    exact hline feed hr
  cases d with
  | rapidMove position feed => exact hmove rfl (toOption_map_eq_some.mp h)
  | linearMove position feed => exact hmove rfl (toOption_map_eq_some.mp h)
  | dropMill depth =>
      obtain rfl := Option.some.inj h
      exact hline .null rfl
  | raiseMill depth =>
      obtain rfl := Option.some.inj h
      exact hline .null rfl
  | terminate force =>
      obtain ⟨hf, rfl⟩ := motion?_terminate.mp h
      have hup : p.millMotion p.clearance = p.lineFor (millMotion p p.clearance) := Program.motion_eq p _ _ _
      rw [run_terminate, Writing.run_terminate_of_unforced ho hf, hup]
      cases p.lineFor (millMotion p p.clearance) with
      | ok line => exact ⟨fun hc => absurd hc (not_fails_ok _), fun hc => absurd hc (not_fails_ok _)⟩
      | error e => rw [fails_error, fails_error]
  | _ => cases h

/-- How a directive ends that makes no motion, on an open program. -/
inductive Rests (d : Call) (p : Program) : Prop where
  | through (hposition : d.refusedPosition? = none)
      (hmode : ∀ given, d = setMode given → ∃ m, DistanceMode.ofValue? given = .ok m) (h : (d.run p).1 = .ok none)
  | mode {given : Value} {e : UnknownMode} (hd : d = setMode given) (he : DistanceMode.ofValue? given = .error e)
      (h : (d.run p).1 = .error (.mode e))
  | position {v : Value} {e : PositionError} (hv : d.refusedPosition? = some v) (he : Position.ofValue? v = .error e)
      (h : (d.run p).1 = .error (.position v e))

/-- A directive that makes no motion goes through, or what it is given is no mode or no position. -/
theorem rests_of_none (ho : p.IsOpen) (hd : d.isDirective = true) (h : d.motion? p = none) : d.Rests p := by
  have hline {line : String} (hr : d.line? p = some (.ok line)) : (d.run p).1 = .ok none := by
    rw [run_of_open ho hr]
    rfl
  have hmove {code : PreparatoryCode} {position feed : Value} (hr : d.line? p = some (p.motionTo code position feed))
      (hm : (Position.ofValue? position).toOption = none)
      (hd : d.refusedPosition? = if (Position.ofValue? position).toOption.isNone then some position else none) :
      d.Rests p := by
    cases hp : Position.ofValue? position with
    | ok target =>
        rw [hp] at hm
        cases hm
    | error e =>
        rw [hp] at hd
        simp only [Program.motionTo, hp] at hr
        refine .position hd hp ?_
        rw [run_of_open ho hr]
        rfl
  cases d with
  | setMode given =>
      cases hmode : DistanceMode.ofValue? given with
      | ok m =>
          refine .through rfl (fun other hother => ?_) ?_
          · cases hother
            exact ⟨m, hmode⟩
          · rw [run_of_open ho rfl, hmode]
            rfl
      | error e =>
          refine .mode rfl hmode ?_
          rw [run_of_open ho rfl, hmode]
          rfl
  | rapidMove position feed => exact hmove rfl (Option.map_eq_none_iff.mp h) rfl
  | linearMove position feed => exact hmove rfl (Option.map_eq_none_iff.mp h) rfl
  | dropMill depth => cases h
  | raiseMill depth => cases h
  | terminate force =>
      have hf : force.isTrue = true := by
        by_contra hf
        simp [motion?, hf] at h
      refine .through rfl (fun _ hgiven => by cases hgiven) ?_
      rw [run_terminate, Writing.run_terminate_of_forced ho hf]
  | add line => cases hd
  | addValue given => cases hd
  | eval => cases hd
  | assign a => cases hd
  | _ => exact .through rfl (fun _ hgiven => by cases hgiven) (hline rfl)

/-- It has no words only for what is no position and cannot be told. -/
theorem fails_run_of_none (ho : p.IsOpen) (hd : d.isDirective = true) (h : d.motion? p = none) :
    Fails (·.isRefusal = false) (d.run p).1 ↔ ∃ v, d.refusedPosition? = some v ∧ v.isWritten = false := by
  have hnone (hposition : d.refusedPosition? = none) : ¬ ∃ v, d.refusedPosition? = some v ∧ v.isWritten = false := by
    rintro ⟨v, hv, -⟩
    cases hposition.symm.trans hv
  cases rests_of_none ho hd h with
  | through hposition _ hrun =>
      rw [hrun]
      exact iff_of_false (not_fails_ok _) (hnone hposition)
  | mode hgiven _ hrun =>
      subst hgiven
      rw [hrun, fails_error]
      exact iff_of_false Bool.noConfusion (hnone rfl)
  | position hv _ hrun =>
      rw [hrun, fails_error, hv]
      exact ⟨fun hwritten => ⟨_, rfl, hwritten⟩, fun ⟨_, hother, hwritten⟩ => Option.some.inj hother ▸ hwritten⟩

/-- A position that makes a motion is not refused. -/
theorem refusedPosition?_of_motion {m : Motion} (h : d.motion? p = some m) : d.refusedPosition? = none := by
  cases d with
  | rapidMove position feed | linearMove position feed =>
      obtain ⟨target, hp, -⟩ := Option.map_eq_some_iff.mp h
      simp [refusedPosition?, hp]
  | _ => rfl

/-- **How a directive gets out** of a strict program. -/
theorem fails_run_iff (hp : p.Consistent) (hstrict : p.config.strict = true) (hd : d.isDirective = true) :
    Fails (·.isRefusal = false) (d.run p).1 ↔ d.Escapes p := by
  by_cases hphase : p.phase = .opened
  · cases hm : d.motion? p with
    | none =>
        rw [fails_run_of_none (hp.isOpen hphase) hd hm]
        constructor
        · rintro ⟨v, hv, hwritten⟩
          exact .position hphase hv hwritten
        · intro h
          cases h with
          | number _ hm' _ _ => cases hm.symm.trans hm'
          | unit _ hm' _ _ => cases hm.symm.trans hm'
          | position _ hv hwritten => exact ⟨_, hv, hwritten⟩
          | name hclosed _ => exact absurd hphase hclosed
    | some m =>
        rw [fails_run_of_motion (hp.isOpen hphase) hm, fails_lineFor hstrict]
        constructor
        · rintro (⟨v, hv, hoversize⟩ | ⟨hfinite, hunit⟩)
          · exact .number hphase hm hv hoversize
          · exact .unit hphase hm hfinite hunit
        · intro h
          cases h with
          | number _ hm' hv hoversize =>
              obtain rfl := Option.some.inj (hm.symm.trans hm')
              exact Or.inl ⟨_, hv, hoversize⟩
          | unit _ hm' hfinite hunit =>
              obtain rfl := Option.some.inj (hm.symm.trans hm')
              exact Or.inr ⟨hfinite, hunit⟩
          | position _ hv _ => cases (refusedPosition?_of_motion hm).symm.trans hv
          | name hclosed _ => exact absurd hphase hclosed
  · rw [run_of_closed (Program.closed_of_not_opened hphase) hd, fails_error]
    constructor
    · exact .name hphase
    · intro h
      cases h with
      | number ho _ _ _ => exact absurd ho hphase
      | unit ho _ _ _ => exact absurd ho hphase
      | position ho _ _ => exact absurd ho hphase
      | name _ hwritten => exact hwritten

/-- What a motion has of a value beyond its arguments is an attribute of the program. -/
theorem numbers_of_motion {m : Motion} (h : d.motion? p = some m) :
    ∀ number ∈ m.numbers, number.2 ∈ d.numbers ∨ number.2 = p.feedrate ∨ number.2 = p.clearance := by
  have hmill {height : Value} : ∀ number ∈ (millMotion p height).numbers, number.2 = height ∨ number.2 = p.feedrate := by
    intro number hnumber
    rcases List.mem_append.mp hnumber with haxis | hfeed
    · obtain ⟨hmem, hpresent⟩ := List.mem_filter.mp haxis
      simp only [List.mem_cons, List.not_mem_nil, or_false] at hmem
      rcases hmem with rfl | rfl | rfl
      · cases hpresent
      · cases hpresent
      · exact Or.inl rfl
    · rw [List.mem_singleton.mp hfeed]
      exact Or.inr rfl
  have hmove {code : PreparatoryCode} {position feed : Value}
      (hd : d.numbers = (Position.ofValue? position).toOption.elim [position] (fun q => [q.x, q.y, q.z]) ++ [feed])
      (hm : ∃ target, Position.ofValue? position = .ok target ∧ Motion.mk code target (p.feedOf feed) = m) :
      ∀ number ∈ m.numbers, number.2 ∈ d.numbers ∨ number.2 = p.feedrate ∨ number.2 = p.clearance := by
    obtain ⟨target, hp, rfl⟩ := hm
    rw [hp] at hd
    intro number hnumber
    rw [hd]
    rcases List.mem_append.mp hnumber with haxis | hfeed
    · exact Or.inl (List.mem_append_left _ (Position.mem_of_components haxis))
    · rw [List.mem_singleton.mp hfeed]
      unfold Program.feedOf
      split
      · exact Or.inr (Or.inl rfl)
      · exact Or.inl (List.mem_append_right _ List.mem_cons_self)
  cases d with
  | rapidMove position feed => exact hmove rfl (toOption_map_eq_some.mp h)
  | linearMove position feed => exact hmove rfl (toOption_map_eq_some.mp h)
  | dropMill depth =>
      obtain rfl := Option.some.inj h
      intro number hnumber
      rcases hmill number hnumber with hheight | hfeed
      · rw [hheight]
        exact Or.inl List.mem_cons_self
      · exact Or.inr (Or.inl hfeed)
  | raiseMill depth =>
      obtain rfl := Option.some.inj h
      intro number hnumber
      rcases hmill number hnumber with hheight | hfeed
      · rw [hheight]
        split
        · exact Or.inr (Or.inr rfl)
        · exact Or.inl List.mem_cons_self
      · exact Or.inr (Or.inl hfeed)
  | terminate force =>
      obtain ⟨-, rfl⟩ := motion?_terminate.mp h
      intro number hnumber
      rcases hmill number hnumber with hheight | hfeed
      · exact Or.inr (Or.inr hheight)
      · exact Or.inr (Or.inl hfeed)
  | _ => cases h

end Call

/-! ### Programs whose attributes are left alone

What a strict program brings to a motion of its own accord has been asked about when the
configuration was read: as long as nobody assigns an attribute, it is up to the arguments.
-/

/-- The attributes that motions fall back on, and the name. -/
def Program.attributes (p : Program) : Value × Value × Value × Value := (p.name, p.unit, p.feedrate, p.clearance)

omit [DigitLimit] in
@[simp]
theorem Program.attributes_append (line : String) (p : Program) : (p.append line).attributes = p.attributes := by
  rw [append_eq]
  rfl

@[simp]
theorem Program.attributes_ended (force : Value) (p : Program) : (p.ended force).attributes = p.attributes := rfl

omit [DigitLimit] in
@[simp]
theorem Program.attributes_stopped (p : Program) : p.stopped.attributes = p.attributes := by
  simp [stopped]

namespace Call

variable {p q : Program} {d : Call} {c : Config} {answer : Except ProgramError (Option String)}

/-- Only an assignment changes them. -/
theorem Gives.attributes (h : d.Gives p answer q) (ha : d.isAssignment = false) : q.attributes = p.attributes := by
  induction h with
  | written ho hline => exact Program.attributes_append _ _
  | forced ho hf => exact Program.attributes_append _ _
  | ended ho hf hup => simp
  | stuck ho hf hup => exact Program.attributes_stopped _
  | added hc hl => exact Program.attributes_append _ _
  | sealed hp hl hs => exact Program.attributes_append _ _
  | unlisted hp hl hs => exact Program.attributes_append _ _
  | unended ho h ih => exact ih rfl
  | finished ho h h' ih ih' => exact (ih' ha).trans (ih rfl)
  | assigned a => cases ha
  | _ => rfl

theorem attributes_runAll (hp : p.Consistent) {calls : List Call} (h : ∀ d ∈ calls, d.isAssignment = false) :
    (runAll calls p).attributes = p.attributes :=
  runAll_invariant (I := fun q => q.attributes = p.attributes)
    (fun d hd _ _ _ hgives hq => (hgives.attributes (h d hd)).trans hq) hp rfl

/-- Where the attributes are those of a strict configuration, what escapes is an argument. -/
theorem oversize_of_escape {name : String} (hq : q.attributes = (.text name, .text c.unit, c.feedrate, c.clearance))
    (hfeedrate : c.feedrate.numberFault? = none) (hclearance : c.clearance.numberFault? = none) (h : d.Escapes q) :
    ∃ v ∈ d.numbers, v.IsOversize := by
  obtain ⟨hname, hunit, hfeed, hheight⟩ :
      q.name = .text name ∧ q.unit = .text c.unit ∧ q.feedrate = c.feedrate ∧ q.clearance = c.clearance := by
    simpa only [Program.attributes, Prod.mk.injEq] using hq
  cases h with
  | @number m v _ hm hv hoversize =>
      have hfault : v.numberFault?.isSome = true := List.find?_some (p := fun v : Value => v.numberFault?.isSome) hv
      obtain ⟨number, hnumber, rfl⟩ := List.mem_map.mp (List.mem_of_find?_eq_some hv)
      rcases numbers_of_motion hm number hnumber with hargument | hstands | hstands
      · exact ⟨number.2, hargument, hoversize⟩
      · rw [hstands, hfeed, hfeedrate] at hfault
        cases hfault
      · rw [hstands, hheight, hclearance] at hfault
        cases hfault
  | unit _ _ _ hlost =>
      rw [hunit] at hlost
      cases hlost
  | @position v _ hv hwritten =>
      refine ⟨v, ?_, Or.inr hwritten⟩
      have hmove {position feed : Value}
          (h : (if (Position.ofValue? position).toOption.isNone then some position else none) = some v) :
          v ∈ (Position.ofValue? position).toOption.elim [position] (fun p => [p.x, p.y, p.z]) ++ [feed] := by
        split at h
        · rename_i hnone
          obtain rfl := Option.some.inj h
          rw [Option.isNone_iff_eq_none.mp hnone]
          exact List.mem_cons_self
        · cases h
      cases d with
      | rapidMove position feed => exact hmove hv
      | linearMove position feed => exact hmove hv
      | _ => cases hv
  | name _ hwritten =>
      rw [hname] at hwritten
      cases hwritten

end Call

/-- **What escapes the strict policy.**  Fields of a configuration are accepted or refused in
words unless the first fault that is found is a name or a unit that cannot be written, or a
value refused as a number that is oversize: too large to be asked about, or to be told.  A
strict configuration that they make opens a program behind every name that can be written, and
whatever was called before, a directive goes through or is refused in words unless it escapes.
As long as no attribute is assigned, there is something oversize among the arguments then. -/
theorem escapes_iff {f : Fields} (hf : f.Known) :
    (Fails (·.isRefusal = false) (Config.ofFields f) ↔
      (Settings.standard.change f.changes).finding? = some (.tooLong ⟨⟩)
      ∨ ∃ e, (Settings.standard.change f.changes).finding? = some (.number e) ∧ e.given.IsOversize)
    ∧ ∀ c, Config.ofFields f = .ok c → c.strict = true → ∀ names,
      ((∃ p, (Program.openNext c names).1 = .ok p) ↔ c.checkName names = .ok ())
      ∧ ∀ p, (Program.openNext c names).1 = .ok p →
        ∀ (calls : List Call) (d : Call), d.isDirective = true →
          (Fails (·.isRefusal = false) (d.run (Call.runAll calls p)).1 ↔ d.Escapes (Call.runAll calls p))
          ∧ ((∀ b ∈ calls, b.isAssignment = false) →
            Fails (·.isRefusal = false) (d.run (Call.runAll calls p)).1 → ∃ v ∈ d.numbers, v.IsOversize) := by
  constructor
  · rw [Config.ofFields_of_known hf, Config.fails_make, Settings.oversized_iff]
  · intro c hmade hc names
    rw [Config.ofFields_of_known hf, Config.make_eq_ok] at hmade
    constructor
    · rw [openNext_of_ofSettings (Config.ofSettings_eq_ok.mpr hmade) names]
      exact ⟨fun h => h.name, fun h => ⟨h, fun hpermissive => Bool.noConfusion (hc.symm.trans hpermissive)⟩⟩
    · intro p hopened calls d hd
      obtain rfl := Program.opened_of_openNext hopened
      have hfollows := Program.follows_opened c (c.nextName names).1
      have ho := Program.isOpen_opened c (c.nextName names).1
      have hq := (Call.recorded_runAll ho.consistent calls).consistent
      have hstrict : (Call.runAll calls (Program.opened c (c.nextName names).1)).config.strict = true := by
        rw [Call.config_runAll ho.consistent calls, hfollows.config, hc]
      have hiff := Call.fails_run_iff hq hstrict hd
      refine ⟨hiff, fun hcalls hfails => ?_⟩
      have hattributes : (Call.runAll calls (Program.opened c (c.nextName names).1)).attributes
          = (.text (c.nextName names).1, .text c.unit, c.feedrate, c.clearance) := by
        rw [Call.attributes_runAll ho.consistent hcalls, Program.attributes, hfollows.name, hfollows.unit,
          hfollows.feedrate, hfollows.clearance]
      have hfeedrate := hmade.feedrate
      have hclearance := hmade.clearance
      rw [hc] at hfeedrate hclearance
      exact Call.oversize_of_escape hattributes (Config.finite_of_readNumber (by decide +kernel) hfeedrate)
        (Config.finite_of_readNumber (by decide +kernel) hclearance) (hiff.mp hfails)

end

/-- One followed by four hundred zeros as a feed rate, and as the height of a move. -/
theorem escapes_iff_of_large :
    let large : Value := .int (Int.ofNat (10 ^ 400))
    let f : Fields := [("strict", .bool true), ("feedrate", large)]
    let g : Fields := [("strict", .bool true), ("name", .text "1")]
    let c : Config := { Config.standard with
      given := Settings.standard.change g.changes, name := some "1", strict := true }
    let calls : List Call := [.dropMill (.text "deep"), .stopSpindle]
    let d : Call := .rapidMove (.tuple [.int 0, .null, large]) .null
    f.Known ∧ Fails (·.isRefusal = false) (Config.ofFields f)
    ∧ ((Settings.standard.change f.changes).finding? = some (.tooLong ⟨⟩)
      ∨ ∃ e, (Settings.standard.change f.changes).finding? = some (.number e) ∧ e.given.IsOversize)
    ∧ g.Known ∧ Config.ofFields g = .ok c ∧ c.strict = true
    ∧ d.isDirective = true ∧ (∀ b ∈ calls, b.isAssignment = false)
    ∧ ∃ p, (Program.openNext c .standard).1 = .ok p
      ∧ Fails (·.isRefusal = false) (d.run (Call.runAll calls p)).1 ∧ ∃ v ∈ d.numbers, v.IsOversize := by
  intro large f g c calls d
  have hf : f.Known := ⟨by decide, by decide⟩
  have hg : g.Known := ⟨by decide, by decide⟩
  have hrefused : Fails (·.isRefusal = false) (Config.ofFields f) := by
    unfold f large
    decide +kernel
  have hc : Config.ofFields g = .ok c := by
    have hunit : Config.unitText (.text "cm") = "cm" := by decide +kernel
    rw [Config.ofFields_of_known hg]
    have hname : Text.upper "1" = "1" := by decide +kernel
    refine Config.make_eq_ok.mpr ⟨rfl, congrArg (fun n => Except.ok (some n)) hname, ?_, rfl, ?_, ?_, rfl, rfl, rfl, rfl⟩
    · exact Config.readUnit_of_known hunit (by decide)
    · exact Config.readNumber_of_finite (v := .int 50) (by decide +kernel)
    · exact Config.readNumber_of_finite (v := .int 10) (by decide +kernel)
  have hcalls : ∀ b ∈ calls, b.isAssignment = false := by
    unfold calls
    decide
  have hescapes : Fails (·.isRefusal = false) (d.run (Call.runAll calls (Program.opened c "1"))).1 := by
    unfold d calls c large
    decide +kernel
  obtain ⟨hopens, hall⟩ := (escapes_iff hg).2 c hc rfl .standard
  obtain ⟨p, hopened⟩ := hopens.mpr rfl
  obtain rfl : p = Program.opened c "1" := Program.opened_of_openNext hopened
  obtain ⟨-, hlarge⟩ := hall _ hopened calls d rfl
  exact ⟨hf, hrefused, (escapes_iff hf).1.mp hrefused, hg, hc, rfl, rfl, hcalls, _, hopened, hescapes,
    hlarge hcalls hescapes⟩

end PartProgram
