/-
What a reading finds fault with.

The settings are read one after another and the first that is at fault is the error, so a
verdict on all of them is made of verdicts on each.  Only the reading of a position looks
further than its own setting, at the clearance, and that is where it fills in and not where
it judges.  What a setting is found guilty of therefore depends on nothing but the policy and
the value that it was given.
-/
import PartProgram.Proofs.Policy

namespace PartProgram

variable [DigitLimit]

/-- What the policy has against a value as a number. -/
def Value.finding? (strict : Bool) (label : String) (v : Value) : Option SettingError :=
  if strict then v.numberFault?.map fun fault => .number ⟨label, v, fault⟩ else none

/-- What a reading has against the value of a setting. -/
def Setting.finding? (strict : Bool) (x : Setting) (v : Value) : Option SettingError :=
  match x with
  | .name => if v.isTrue && !v.isWritten then some (.tooLong ⟨⟩) else none
  | .unit =>
    if !v.isWritten then some (.tooLong ⟨⟩)
    else if strict && !LengthUnit.isKnown (Config.unitText v) then some (.unknownUnit v)
    else none
  | .positioning =>
    if Config.isOpen v then none
    else match DistanceMode.ofValue? v with
      | .ok _ => none
      | .error e => if strict then some (.unknownMode e) else none
  | .feedrate | .clearance => if v.isNull then none else v.finding? strict x.key
  | .start | .finish =>
    if v.isNull then none
    else match Position.ofValue? v with
      | .ok p => p.components.findSome? fun (axis, w) => w.finding? strict (x.key ++ "." ++ axis.toLower)
      | .error e => some (.position x e)
  | .lineNumbering | .strict => none

namespace Setting

theorem finding?_name (strict : Bool) (v : Value) :
    name.finding? strict v = if v.isTrue && !v.isWritten then some (.tooLong ⟨⟩) else none := rfl

theorem finding?_unit (strict : Bool) (v : Value) : unit.finding? strict v =
    if !v.isWritten then some (.tooLong ⟨⟩)
    else if strict && !LengthUnit.isKnown (Config.unitText v) then some (.unknownUnit v)
    else none := rfl

theorem finding?_positioning (strict : Bool) (v : Value) : positioning.finding? strict v =
    if Config.isOpen v then none
    else match DistanceMode.ofValue? v with
      | .ok _ => none
      | .error e => if strict then some (.unknownMode e) else none := rfl

theorem finding?_of_number {x : Setting} (hx : x ∈ [feedrate, clearance]) (strict : Bool) (v : Value) :
    x.finding? strict v = if v.isNull then none else v.finding? strict x.key := by
  simp only [List.mem_cons, List.not_mem_nil, or_false] at hx
  rcases hx with rfl | rfl <;> rfl

theorem finding?_of_position {x : Setting} (hx : x ∈ [start, finish]) (strict : Bool) (v : Value) :
    x.finding? strict v = if v.isNull then none
      else match Position.ofValue? v with
        | .ok p => p.components.findSome? fun (axis, w) => w.finding? strict (x.key ++ "." ++ axis.toLower)
        | .error e => some (.position x e) := by
  simp only [List.mem_cons, List.not_mem_nil, or_false] at hx
  rcases hx with rfl | rfl <;> rfl

end Setting

/-- The settings that a reading judges, in the order in which it does. -/
def Setting.judged : List Setting := [name, unit, positioning, feedrate, clearance, start, finish]

/-- What a reading finds fault with first. -/
def Settings.finding? (s : Settings) : Option SettingError :=
  Setting.judged.findSome? fun x => x.finding? (s .strict).isTrue (s x)

/-! ### Results and findings

A reading that goes through several stages has as its error what the first faulty stage finds.
`Answers` ties a result to an optional finding, and it passes through the stages with `or`,
which is how the findings of a list are put together.
-/

omit [DigitLimit] in
theorem findSome?_cons_or {α β : Type} (f : α → Option β) (a : α) (l : List α) :
    (a :: l).findSome? f = (f a).or (l.findSome? f) := by
  rw [List.findSome?_cons]
  cases f a <;> rfl

/-- The result is the error that was found, and there is one where nothing was found. -/
def Answers {ε α : Type} (found : Option ε) (r : Except ε α) : Prop :=
  match found with
  | some e => r = .error e
  | none => ∃ a, r = .ok a

namespace Answers

variable {ε α β : Type} {found : Option ε} {r : Except ε α}

omit [DigitLimit]

theorem ok (a : α) : Answers (none : Option ε) (.ok a) := ⟨a, rfl⟩

theorem error (e : ε) : Answers (some e) (.error e : Except ε α) := rfl

theorem isOk (h : Answers found r) : (∃ a, r = .ok a) ↔ found = none := by
  cases found with
  | none => exact ⟨fun _ => rfl, fun _ => h⟩
  | some e =>
      refine ⟨?_, fun hnone => by cases hnone⟩
      rintro ⟨a, ha⟩
      rw [show r = .error e from h] at ha
      cases ha

theorem isError (h : Answers found r) {e : ε} : r = .error e ↔ found = some e := by
  cases found with
  | none =>
      obtain ⟨a, rfl⟩ := h
      constructor
      · intro he
        cases he
      · intro he
        cases he
  | some e' =>
      rw [show r = .error e' from h]
      exact ⟨fun he => congrArg some (Except.error.inj he), fun he => congrArg Except.error (Option.some.inj he)⟩

/-- Of two stages the first is heard first. -/
theorem bind {found' : Option ε} {f : α → Except ε β} (h : Answers found r) (hf : ∀ a, r = .ok a → Answers found' (f a)) :
    Answers (found.or found') (r >>= f) := by
  cases found with
  | none =>
      obtain ⟨a, rfl⟩ := h
      exact hf a rfl
  | some e =>
      rw [show r = .error e from h]
      rfl

theorem map {f : α → β} (h : Answers found r) : Answers found (f <$> r) := by
  cases found with
  | none =>
      obtain ⟨a, rfl⟩ := h
      exact ok (f a)
  | some e =>
      rw [show r = .error e from h]
      rfl

theorem forM {f : α → Except ε Unit} {g : α → Option ε} (h : ∀ a, Answers (g a) (f a)) (l : List α) :
    Answers (l.findSome? g) (l.forM f) := by
  induction l with
  | nil => exact ok ()
  | cons a rest ih =>
      rw [findSome?_cons_or]
      exact (h a).bind fun _ _ => ih

end Answers

/-! ### The readings one by one -/

namespace Config

variable (strict : Bool) (v : Value)

theorem answers_readName : Answers (Setting.name.finding? strict v) (readName v) := by
  rw [Setting.finding?_name, readName]
  cases v.isTrue with
  | false => exact Answers.ok none
  | true =>
      cases v.isWritten with
      | false => exact Answers.error _
      | true => exact Answers.ok _

theorem answers_readUnit : Answers (Setting.unit.finding? strict v) (readUnit strict v) := by
  rw [Setting.finding?_unit, readUnit]
  split
  · exact Answers.error _
  · split
    · exact Answers.error _
    · exact Answers.ok _

theorem answers_readMode : Answers (Setting.positioning.finding? strict v) (readMode strict v) := by
  rw [Setting.finding?_positioning, readMode]
  by_cases ho : isOpen v = true
  · rw [if_pos ho, if_pos ho]
    exact Answers.ok _
  · rw [if_neg ho, if_neg ho]
    cases DistanceMode.ofValue? v with
    | ok m => exact Answers.ok m
    | error e =>
        cases strict with
        | true => exact Answers.error _
        | false => exact Answers.ok _

omit [DigitLimit] in
theorem answers_checkNumber (label : String) : Answers (v.finding? strict label) (checkNumber strict label v) := by
  unfold checkNumber Value.finding? Value.checkFinite
  cases strict with
  | false => exact Answers.ok ()
  | true =>
      cases v.numberFault? with
      | none => exact Answers.ok ()
      | some fault => exact Answers.error _

theorem answers_readNumber (x : Setting) (standard : Value) (hx : x ∈ [Setting.feedrate, .clearance]) :
    Answers (x.finding? strict v) (readNumber strict x standard v) := by
  rw [Setting.finding?_of_number hx, readNumber]
  split
  · exact Answers.ok standard
  · exact (answers_checkNumber strict v x.key).map

theorem answers_readPosition (x : Setting) (clearance : Value) (hx : x ∈ [Setting.start, .finish]) :
    Answers (x.finding? strict v) (readPosition strict x clearance v) := by
  rw [Setting.finding?_of_position hx, readPosition]
  split
  · exact Answers.ok _
  · cases Position.ofValue? v with
    | error e => exact Answers.error _
    | ok p =>
        have haxes := Answers.forM (fun axis : String × Value =>
          answers_checkNumber strict axis.2 (x.key ++ "." ++ axis.1.toLower)) p.components
        exact haxes.map

/-- **The first fault that is found is the error**, and settings without one make a
configuration. -/
theorem answers_ofSettings (s : Settings) : Answers s.finding? (ofSettings s) := by
  unfold Settings.finding? Setting.judged ofSettings
  simp only [findSome?_cons_or]
  refine (answers_readName _ _).bind fun name _ => ?_
  refine (answers_readUnit _ _).bind fun unit _ => ?_
  refine (answers_readMode _ _).bind fun mode _ => ?_
  refine (answers_readNumber _ _ .feedrate _ List.mem_cons_self).bind fun feedrate _ => ?_
  refine (answers_readNumber _ _ .clearance _ (List.mem_cons_of_mem _ List.mem_cons_self)).bind fun clearance _ => ?_
  refine (answers_readPosition _ _ .start _ List.mem_cons_self).bind fun start _ => ?_
  exact (answers_readPosition _ _ .finish _ (List.mem_cons_of_mem _ List.mem_cons_self)).bind fun finish _ => Answers.ok _

/-- Settings that are not judged are found without fault. -/
theorem findSome?_judged_eq_none {strict : Bool} {s : Settings} :
    (Setting.judged.findSome? fun x => x.finding? strict (s x)) = none ↔ ∀ x : Setting, x.finding? strict (s x) = none := by
  rw [List.findSome?_eq_none_iff]
  constructor
  · intro h x
    by_cases hx : x ∈ Setting.judged
    · exact h x hx
    · cases x with
      | lineNumbering | strict => rfl
      | _ => exact absurd (by decide) hx
  · intro h x _
    exact h x

/-- Settings make a configuration exactly when nothing is found in any of them. -/
theorem exists_ofSettings_iff {s : Settings} :
    (∃ c, ofSettings s = .ok c) ↔ ∀ x : Setting, x.finding? (s .strict).isTrue (s x) = none :=
  (answers_ofSettings s).isOk.trans findSome?_judged_eq_none

end Config

omit [DigitLimit] in
theorem Value.finding?_permissive (label : String) (v : Value) : v.finding? false label = none :=
  if_neg Bool.false_ne_true

namespace Setting

variable {x : Setting} {v : Value}

/-- The permissive policy has nothing against any number, and passes over any mode. -/
theorem finding?_permissive (hx : x ∉ [name, unit, start, finish]) (v : Value) : x.finding? false v = none := by
  cases x with
  | positioning =>
      rw [finding?_positioning]
      cases DistanceMode.ofValue? v <;> exact ite_self _
  | feedrate | clearance =>
      rw [finding?_of_number (by decide), Value.finding?_permissive]
      exact ite_self _
  | name | unit | start | finish => exact absurd (by decide) hx
  | lineNumbering | strict => rfl

theorem finding?_unit_permissive (v : Value) :
    unit.finding? false v = if !v.isWritten then some (.tooLong ⟨⟩) else none := rfl

/-- The strict policy finds whatever the permissive one finds. -/
theorem finding?_relaxed {strict : Bool} (h : x.finding? strict v = none) : x.finding? false v = none := by
  by_cases hx : x ∈ [start, finish]
  · rw [finding?_of_position hx] at h ⊢
    split at h
    · rename_i hnull
      rw [if_pos hnull]
    · rename_i hnull
      rw [if_neg hnull]
      cases hp : Position.ofValue? v with
      | ok p => simp [Value.finding?_permissive]
      | error e => simp [hp] at h
  · cases x with
    | name => exact h
    | unit =>
        rw [finding?_unit] at h
        rw [finding?_unit_permissive]
        split at h
        · cases h
        · rename_i hwritten
          exact if_neg hwritten
    | start | finish => exact absurd (by decide) hx
    | _ => exact finding?_permissive (by decide) v

end Setting

/-! ### Numbers that are found at fault -/

omit [DigitLimit] in
theorem Position.mem_of_components {p : Position} {axis : String × Value} (h : axis ∈ p.components) :
    axis.2 ∈ [p.x, p.y, p.z] := by
  have hmem := (List.mem_filter.mp h).1
  simp only [List.mem_cons, List.not_mem_nil, or_false] at hmem ⊢
  rcases hmem with rfl | rfl | rfl <;> simp

/-- A number that was found at fault with a value: that value, or an axis of the position that it is. -/
structure NumberError.FoundIn (e : NumberError) (strict : Bool) (v : Value) : Prop where
  strict : strict = true
  fault : e.given.numberFault? = some e.fault
  place : e.given = v ∨ ∃ p, Position.ofValue? v = .ok p ∧ e.given ∈ [p.x, p.y, p.z]

omit [DigitLimit] in
theorem Value.finding?_number {strict : Bool} {label : String} {v : Value} {e : NumberError}
    (h : v.finding? strict label = some (.number e)) :
    strict = true ∧ e.given = v ∧ v.numberFault? = some e.fault := by
  unfold finding? at h
  split at h
  · rename_i hstrict
    obtain ⟨fault, hfault, he⟩ := Option.map_eq_some_iff.mp h
    obtain rfl := SettingError.number.inj he
    exact ⟨hstrict, rfl, hfault⟩
  · cases h

theorem Setting.finding?_number {strict : Bool} {x : Setting} {v : Value} {e : NumberError}
    (h : x.finding? strict v = some (.number e)) : e.FoundIn strict v := by
  by_cases hx : x ∈ [start, finish]
  · rw [finding?_of_position hx] at h
    split at h
    · cases h
    · split at h
      · rename_i p hp
        obtain ⟨axis, haxis, hfound⟩ := List.exists_of_findSome?_eq_some h
        obtain ⟨hstrict, hgiven, hfault⟩ := Value.finding?_number hfound
        rw [← hgiven] at hfault
        exact ⟨hstrict, hfault, Or.inr ⟨p, hp, hgiven ▸ Position.mem_of_components haxis⟩⟩
      · cases h
  · cases x with
    | feedrate | clearance =>
        rw [finding?_of_number (by decide)] at h
        split at h
        · cases h
        · obtain ⟨hstrict, rfl, hfault⟩ := Value.finding?_number h
          exact ⟨hstrict, hfault, Or.inl rfl⟩
    | name =>
        rw [finding?_name] at h
        split at h <;> cases h
    | unit =>
        rw [finding?_unit] at h
        split at h
        · cases h
        · split at h <;> cases h
    | positioning =>
        rw [finding?_positioning] at h
        split at h
        · cases h
        · split at h
          · cases h
          · split at h <;> cases h
    | start | finish => exact absurd (by decide) hx
    | lineNumbering | strict => cases h

end PartProgram
