/-
Motions and their lines.

A motion is a code, a target and a feed rate, the feed rate of the program having been put
in where none was given.  Its line is the word of the code and then one word for each
number, and its numbers are also what the strict policy looks at.  Where the unit is a text
it can always be looked up, so the line is known before anything is judged: whether the
motion comes about is decided by the policy, and by whether its numbers can be written.
-/
import PartProgram.Proofs.Directive
import PartProgram.Proofs.Written

namespace PartProgram

/-- A motion with its feed rate decided. -/
structure Motion where
  code : PreparatoryCode
  target : Position
  feed : Value

namespace Motion

/-- The numbers of a motion with their letters, in the order in which they are written. -/
def numbers (m : Motion) : List (String × Value) := m.target.components ++ [("F", m.feed)]

/-- The line of a motion under the factor of a unit. -/
def line (factor : Nat) (m : Motion) : String := motionLine m.code factor m.target m.feed

/-- What a number adds to the line of a motion. -/
def wordText (factor : Nat) (letter : String) (v : Value) : String := " " ++ letter ++ (v.scale factor).numberText

/-- What an axis adds to the line of a motion, nothing where it is missing. -/
def axisText (factor : Nat) (letter : String) (v : Value) : String :=
  if v.isNull then "" else wordText factor letter v

/-- The words of the numbers of a motion. -/
def numberWords (factor : Nat) (m : Motion) : List String :=
  m.numbers.map fun number => numberWord number.1 factor number.2

/-- Every number of the motion is finite. -/
def IsFinite (m : Motion) : Prop := ∀ number ∈ m.numbers, number.2.numberFault? = none

instance (m : Motion) : Decidable m.IsFinite :=
  inferInstanceAs (Decidable (∀ number ∈ m.numbers, number.2.numberFault? = none))

/-- Every number of the motion can be written under the factor of a unit. -/
def IsWritten [DigitLimit] (factor : Nat) (m : Motion) : Prop :=
  ∀ number ∈ m.numbers, (number.2.scale factor).isWritten = true

instance [DigitLimit] (factor : Nat) (m : Motion) : Decidable (m.IsWritten factor) :=
  inferInstanceAs (Decidable (∀ number ∈ m.numbers, (number.2.scale factor).isWritten = true))

theorem line_eq (factor : Nat) (m : Motion) :
    m.line factor = " ".intercalate (m.code.toWord :: m.numberWords factor) := by
  rw [line, motionLine, numberWords, numbers, List.map_append]
  rfl

/-- The line of a motion, written out. -/
def text (factor : Nat) (m : Motion) : String :=
  m.code.toWord ++ axisText factor "X" m.target.x ++ axisText factor "Y" m.target.y
    ++ axisText factor "Z" m.target.z ++ wordText factor "F" m.feed

theorem line_eq_text (factor : Nat) (m : Motion) : m.line factor = m.text factor := by
  have hlast (letter : String) (v : Value) : " " ++ numberWord letter factor v = wordText factor letter v :=
    (String.append_assoc ..).symm
  have hword (letter rest : String) (v : Value) :
      " " ++ (numberWord letter factor v ++ rest) = wordText factor letter v ++ rest := by
    rw [← String.append_assoc, hlast]
  rw [line_eq, numberWords, numbers, Position.components, text, axisText, axisText, axisText]
  cases hx : m.target.x.isNull <;> cases hy : m.target.y.isNull <;> cases hz : m.target.z.isNull <;>
    simp [hx, hy, hz, String.intercalate_cons_cons, String.append_assoc, hlast, hword]

end Motion

/-- Refuses a motion with a number that cannot be written under the factor of a unit. -/
def Motion.checkWritten [DigitLimit] (factor : Nat) (m : Motion) : Except WordError Unit :=
  m.numbers.forM fun number => (number.2.scale factor).checkWritten.mapError .number

namespace Config

/-- Whether a configuration lets a motion through that is written under a factor: first the policy is asked about its
numbers, and then they are written. -/
def admitsUnder [DigitLimit] (factor : Nat) (c : Config) (m : Motion) : Except ProgramError Unit := do
  m.numbers.forM c.judge
  (m.checkWritten factor).mapError .word

/-- Whether a configuration lets a motion through in its unit. -/
def admits [DigitLimit] (c : Config) (m : Motion) : Except ProgramError Unit :=
  c.admitsUnder (LengthUnit.factor c.unit) m

end Config

/-! ### Motions where the unit is a text -/

/-- What is no number is written the same under every factor. -/
theorem numberWord_of_not_scalable {v : Value} (h : v.isScalable = false) (letter : String) (f g : Nat) :
    numberWord letter f v = numberWord letter g v := by
  cases v with
  | int i => cases h
  | float x => cases h
  | _ => rfl

/-- What is computed for each item behind a check of its own is computed when all checks are passed. -/
theorem mapM_checked {α β ε : Type} (check : α → Except ε Unit) (f : α → β) (l : List α) :
    l.mapM (fun a => (check a).map fun _ => f a) = (l.forM check).map fun _ => l.map f := by
  induction l with
  | nil => rfl
  | cons a rest ih =>
      rw [List.mapM_cons, ih, show (a :: rest).forM check = (check a >>= fun _ => rest.forM check) from rfl]
      cases check a with
      | error e => rfl
      | ok _ => cases rest.forM check <;> rfl

section

variable [DigitLimit]

theorem numberWordIn_of_factor {unit v : Value} {factor : Nat} (h : LengthUnit.factorFor unit v = .ok factor)
    (letter : String) : numberWordIn unit letter v
      = ((v.scale factor).checkWritten.mapError WordError.number).map fun _ => numberWord letter factor v := by
  unfold numberWordIn
  rw [h]
  cases hwritten : (v.scale factor).checkWritten <;>
    simp [hwritten, Except.map, bind, Except.bind, pure, Except.pure]

/-- Where the unit is a text, the word of a number is that of its factor. -/
theorem numberWordIn_text (u letter : String) (v : Value) :
    numberWordIn (.text u) letter v
      = ((v.scale (LengthUnit.factor u)).checkWritten.mapError WordError.number).map fun _ =>
        numberWord letter (LengthUnit.factor u) v := by
  by_cases h : v.isScalable = true
  · have hfactor : LengthUnit.factorFor (.text u) v = .ok (LengthUnit.factor u) := if_pos h
    exact numberWordIn_of_factor hfactor letter
  · have hfactor : LengthUnit.factorFor (.text u) v = .ok 1 := if_neg h
    have hsame (f g : Nat) : v.scale f = v.scale g := by
      cases v with
      | int i => exact absurd rfl h
      | float x => exact absurd rfl h
      | _ => rfl
    rw [numberWordIn_of_factor hfactor, hsame (LengthUnit.factor u) 1,
      numberWord_of_not_scalable ((Bool.not_eq_true _).mp h) letter (LengthUnit.factor u) 1]

/-- Where the unit is a text, the line of a motion is that of its factor, as long as its numbers can be written. -/
theorem motionLineIn_text (u : String) (m : Motion) :
    motionLineIn m.code (.text u) m.target m.feed
      = (m.checkWritten (LengthUnit.factor u)).map fun _ => m.line (LengthUnit.factor u) := by
  generalize hfactor : LengthUnit.factor u = factor
  let check (number : String × Value) : Except WordError Unit :=
    (number.2.scale factor).checkWritten.mapError .number
  have haxes : m.target.axisWordsIn (.text u) = (m.target.components.forM check).map fun _ =>
      m.target.axisWords factor := by
    unfold Position.axisWordsIn
    simp only [numberWordIn_text, hfactor]
    exact mapM_checked check (fun axis => numberWord axis.1 factor axis.2) _
  have hfeed : feedWordIn (.text u) m.feed = (check ("F", m.feed)).map fun _ => feedWord factor m.feed := by
    rw [feedWordIn, numberWordIn_text, hfactor]
    rfl
  have hall : m.checkWritten factor = (do m.target.components.forM check; check ("F", m.feed)) := by
    rw [Motion.checkWritten, Motion.numbers, List.forM_eq_forM, List.forM_append, ← List.forM_eq_forM]
    cases m.target.components.forM check with
    | error e => rfl
    | ok _ => cases hlast : check ("F", m.feed) <;> simp_all [check, bind, Except.bind, pure, Except.pure]
  rw [motionLineIn, haxes, hfeed, hall]
  cases m.target.components.forM check with
  | error e => rfl
  | ok _ => cases check ("F", m.feed) <;> rfl

/-! ### Motions that are let through

The two policies ask for different things.  The strict one asks for finite numbers, and those can
be written in every unit; under the permissive one nothing is asked, and it is left to the writing
to fail.
-/

namespace Motion

theorem checkWritten_eq_ok {factor : Nat} {m : Motion} : m.checkWritten factor = .ok () ↔ m.IsWritten factor := by
  rw [checkWritten, forM_eq_ok]
  exact forall₂_congr fun _ _ => mapError_eq_ok.trans Value.checkWritten_eq_ok

/-- An axis that is missing is nothing that could not be written. -/
theorem isWritten_iff {factor : Nat} {m : Motion} : m.IsWritten factor ↔
    ∀ v ∈ [m.target.x, m.target.y, m.target.z, m.feed], (v.scale factor).isWritten = true := by
  have haxis (axis : String) {v : Value} (hv : (axis, v) ∈ [("X", m.target.x), ("Y", m.target.y), ("Z", m.target.z)])
      (h : m.IsWritten factor) : (v.scale factor).isWritten = true := by
    cases hnull : v.isNull with
    | true =>
        cases v with
        | null => rfl
        | _ => cases hnull
    | false =>
        have hmem : (axis, v) ∈ m.target.components := List.mem_filter.mpr ⟨hv, by simp [hnull]⟩
        exact h _ (List.mem_append_left _ hmem)
  constructor
  · intro h
    simp only [List.forall_mem_cons]
    exact ⟨haxis "X" (by simp) h, haxis "Y" (by simp) h, haxis "Z" (by simp) h,
      h _ (List.mem_append_right _ List.mem_cons_self), fun v hv => absurd hv List.not_mem_nil⟩
  · intro h number hnumber
    refine h _ ?_
    rcases List.mem_append.mp hnumber with hmem | hmem
    · have hcomponent := (List.mem_filter.mp hmem).1
      simp only [List.mem_cons, List.not_mem_nil, or_false] at hcomponent ⊢
      rcases hcomponent with rfl | rfl | rfl <;> simp
    · rw [List.mem_singleton.mp hmem]
      simp

/-- Without a limit of digits every motion can be written. -/
theorem isWritten_of_unlimited (h : DigitLimit.most = none) (factor : Nat) (m : Motion) : m.IsWritten factor :=
  fun number _ => Value.isWritten_of_unlimited h (number.2.scale factor)

/-- What is finite can be written in every unit. -/
theorem IsFinite.isWritten {m : Motion} (h : m.IsFinite) (unit : String) : m.IsWritten (LengthUnit.factor unit) :=
  fun number hnumber => Value.isWritten_scale_of_finite (h number hnumber) unit

end Motion

namespace Config

variable {c : Config} {m : Motion}

omit [DigitLimit] in
theorem judge_eq_ok {number : String × Value} :
    c.judge number = .ok () ↔ (c.strict = true → number.2.numberFault? = none) := by
  rw [judge, Value.checkFinite]
  cases c.strict with
  | false => simp
  | true => cases number.2.numberFault? <;> simp

omit [DigitLimit] in
/-- A permissive configuration has nothing to say against any number. -/
theorem judge_of_permissive (hc : c.strict = false) (numbers : List (String × Value)) :
    numbers.forM c.judge = .ok () :=
  forM_eq_ok.mpr fun _ _ => judge_eq_ok.mpr fun hstrict => Bool.noConfusion (hc.symm.trans hstrict)

theorem admitsUnder_eq_ok {factor : Nat} :
    c.admitsUnder factor m = .ok () ↔ (c.strict = true → m.IsFinite) ∧ m.IsWritten factor := by
  have hjudged : m.numbers.forM c.judge = .ok () ↔ (c.strict = true → m.IsFinite) := by
    rw [forM_eq_ok]
    exact ⟨fun h hc number hnumber => judge_eq_ok.mp (h number hnumber) hc,
      fun h number hnumber => judge_eq_ok.mpr fun hc => h hc number hnumber⟩
  unfold admitsUnder
  constructor
  · intro h
    obtain ⟨_, hfinite, hwritten⟩ := bind_eq_ok.mp h
    exact ⟨hjudged.mp hfinite, Motion.checkWritten_eq_ok.mp (mapError_eq_ok.mp hwritten)⟩
  · intro h
    exact bind_eq_ok.mpr ⟨(), hjudged.mpr h.1, mapError_eq_ok.mpr (Motion.checkWritten_eq_ok.mpr h.2)⟩

/-- A strict configuration lets through what is finite. -/
theorem admits_of_strict (hc : c.strict = true) : c.admits m = .ok () ↔ m.IsFinite := by
  rw [admits, admitsUnder_eq_ok]
  exact ⟨fun h => h.1 hc, fun h => ⟨fun _ => h, h.isWritten c.unit⟩⟩

/-- A permissive configuration lets through what can be written. -/
theorem admits_of_permissive (hc : c.strict = false) : c.admits m = .ok () ↔ m.IsWritten (LengthUnit.factor c.unit) := by
  rw [admits, admitsUnder_eq_ok, hc]
  exact ⟨fun h => h.2, fun h => ⟨fun hstrict => Bool.noConfusion hstrict, h⟩⟩

/-- What is finite is let through under either policy. -/
theorem admits_of_isFinite (h : m.IsFinite) : c.admits m = .ok () :=
  admitsUnder_eq_ok.mpr ⟨fun _ => h, h.isWritten c.unit⟩

end Config

namespace Program

/-- The feed rate of a motion: that of the program where none is given. -/
def feedOf (p : Program) (feed : Value) : Value := if feed.isNull then p.feedrate else feed

/-- The line of a motion with its feed rate decided, or what is wrong with it. -/
def lineFor (p : Program) (m : Motion) : Except ProgramError String := do
  m.numbers.forM p.config.judge
  (motionLineIn m.code p.unit m.target m.feed).mapError .word

/-- The numbers of a motion are judged in one go. -/
theorem motion_eq (p : Program) (code : PreparatoryCode) (target : Position) (feed : Value) :
    p.motion code target feed = p.lineFor ⟨code, target, p.feedOf feed⟩ := by
  rw [lineFor, Motion.numbers, List.forM_eq_forM, List.forM_append, ← List.forM_eq_forM]
  unfold motion
  rw [show (if feed.isNull = true then p.feedrate else feed) = p.feedOf feed from rfl]
  cases target.components.forM p.config.judge with
  | error e => rfl
  | ok _ => cases hfeed : p.config.judge ("F", p.feedOf feed) <;> simp [hfeed, bind, Except.bind, pure, Except.pure]

/-- A motion comes about exactly when the configuration lets it through. -/
theorem motion_of_text {p : Program} {u : String} (hu : p.unit = .text u) (code : PreparatoryCode)
    (target : Position) (feed : Value) :
    p.motion code target feed = (p.config.admitsUnder (LengthUnit.factor u) ⟨code, target, p.feedOf feed⟩).map fun _ =>
      Motion.text (LengthUnit.factor u) ⟨code, target, p.feedOf feed⟩ := by
  rw [motion_eq, lineFor, Config.admitsUnder, hu, motionLineIn_text, ← Motion.line_eq_text]
  cases (Motion.mk code target (p.feedOf feed)).numbers.forM p.config.judge with
  | error e => rfl
  | ok _ => cases (Motion.mk code target (p.feedOf feed)).checkWritten (LengthUnit.factor u) <;> rfl

end Program

end

end PartProgram
