/-
What a run has words for and what it has not.

Most of what can be wrong with a job is refused in words, and some of it is not: a key that is
no text, where keys are put into a message or taken for names, and an integer beyond the range
of floats, where the strict policy asks whether a number is finite.  A section of settings can
be wrong in both ways.  A program can be wrong in neither as long as it comes from a job: the
numbers of directives are floats, those of the configuration have been asked about when it was
made, and nothing else that a directive brings along is looked at by the program but the phase.
-/
import PartProgram.Command.Failure
import PartProgram.Proofs.Ending
import PartProgram.Proofs.Findings
import PartProgram.Proofs.JobSettings

namespace PartProgram

/-! ### Errors of a kind -/

/-- What ends in an error of some kind. -/
def Fails {ε α : Type} (kind : ε → Prop) (x : Except ε α) : Prop := ∃ e, x = .error e ∧ kind e

section Fails

variable {α β ε ε' : Type} {kind : ε → Prop}

theorem not_fails_ok (a : α) : ¬ Fails kind (.ok a) := by
  rintro ⟨e, h, -⟩
  cases h

theorem fails_error {e : ε} : Fails kind (.error e : Except ε α) ↔ kind e := by
  constructor
  · rintro ⟨e', h, hkind⟩
    obtain rfl := Except.error.inj h
    exact hkind
  · exact fun h => ⟨e, rfl, h⟩

instance [DecidablePred kind] (x : Except ε α) : Decidable (Fails kind x) :=
  match x with
  | .ok a => .isFalse (not_fails_ok a)
  | .error _ => decidable_of_iff _ fails_error.symm

/-- Of two stages the first fails, or the second does on what the first has made. -/
theorem fails_bind {x : Except ε α} {f : α → Except ε β} :
    Fails kind (x >>= f) ↔ Fails kind x ∨ ∃ a, x = .ok a ∧ Fails kind (f a) := by
  cases x with
  | error e =>
      show Fails kind (.error e : Except ε β) ↔ _
      rw [fails_error, fails_error]
      exact ⟨Or.inl, fun h => h.elim id fun ⟨_, h, _⟩ => by cases h⟩
  | ok a =>
      show Fails kind (f a) ↔ _
      constructor
      · exact fun h => Or.inr ⟨a, rfl, h⟩
      · rintro (h | ⟨b, hb, h⟩)
        · exact absurd h (not_fails_ok a)
        · obtain rfl := Except.ok.inj hb
          exact h

theorem fails_map {x : Except ε α} {f : α → β} : Fails kind (f <$> x) ↔ Fails kind x := by
  cases x with
  | error e => exact fails_error.trans fails_error.symm
  | ok a => exact ⟨fun h => absurd h (not_fails_ok _), fun h => absurd h (not_fails_ok a)⟩

theorem fails_mapError {x : Except ε α} {f : ε → ε'} {kind : ε' → Prop} :
    Fails kind (x.mapError f) ↔ Fails (fun e => kind (f e)) x := by
  cases x with
  | error e => rw [mapError_error, fails_error, fails_error]
  | ok a => exact ⟨fun h => absurd h (not_fails_ok a), fun h => absurd h (not_fails_ok a)⟩

/-- What can only fail in one way fails in it unless it answers. -/
theorem fails_iff_not_ok {x : Except ε α} (h : ∀ e, x = .error e → kind e) : Fails kind x ↔ ¬ ∃ a, x = .ok a := by
  cases x with
  | ok a => exact iff_of_false (not_fails_ok a) (not_not_intro ⟨a, rfl⟩)
  | error e => exact iff_of_true (fails_error.mpr (h e rfl)) fun ⟨_, ha⟩ => by cases ha

theorem not_fails_of_forall {x : Except ε α} (h : ∀ e, ¬ kind e) : ¬ Fails kind x :=
  fun ⟨e, _, hkind⟩ => h e hkind

end Fails

/-- Checks that are made one after another fail as one of them does. -/
theorem forM_eq_error {α ε : Type} {f : α → Except ε Unit} {l : List α} {e : ε} (h : l.forM f = .error e) :
    ∃ a ∈ l, f a = .error e := by
  induction l with
  | nil => cases h
  | cons first rest ih =>
      rw [show (first :: rest).forM f = (f first >>= fun _ => rest.forM f) from rfl] at h
      cases hfirst : f first with
      | error e' =>
          rw [hfirst] at h
          obtain rfl := Except.error.inj h
          exact ⟨first, List.mem_cons_self, hfirst⟩
      | ok _ =>
          rw [hfirst] at h
          obtain ⟨a, ha, hfails⟩ := ih h
          exact ⟨a, List.mem_cons_of_mem first ha, hfails⟩

/-! ### Keys that are no texts -/

namespace Value

/-- A key that is no text. -/
def IsOdd (v : Value) : Prop := ∀ name, v ≠ .text name

theorem not_isOdd {v : Value} : ¬ v.IsOdd ↔ ∃ name, v = .text name := by
  simp only [IsOdd, not_forall, not_not]

theorem insertSorted_perm {v : Value} {vs sorted : List Value} (h : insertSorted v vs = .ok sorted) :
    sorted.Perm (v :: vs) := by
  induction vs generalizing sorted with
  | nil =>
      obtain rfl := Except.ok.inj h
      exact .refl _
  | cons w rest ih =>
      rw [insertSorted] at h
      obtain ⟨before, -, h⟩ := bind_eq_ok.mp h
      cases before with
      | true =>
          obtain rfl := Except.ok.inj h
          exact .refl _
      | false =>
          obtain ⟨inserted, hinserted, h⟩ := bind_eq_ok.mp h
          obtain rfl := Except.ok.inj h
          exact ((ih hinserted).cons w).trans (.swap v w rest)

theorem foldlM_insertSorted_perm {vs before sorted : List Value}
    (h : vs.foldlM (fun vs v => insertSorted v vs) before = .ok sorted) : sorted.Perm (vs ++ before) := by
  induction vs generalizing before with
  | nil =>
      obtain rfl := Except.ok.inj h
      exact .refl _
  | cons v rest ih =>
      rw [List.foldlM_cons] at h
      obtain ⟨inserted, hinserted, h⟩ := bind_eq_ok.mp h
      exact (ih h).trans (((insertSorted_perm hinserted).append_left rest).trans List.perm_middle)

/-- What is sorted is the same values. -/
theorem sorted_perm {vs sorted : List Value} (h : Value.sorted vs = .ok sorted) : sorted.Perm vs := by
  simpa using foldlM_insertSorted_perm h

theorem insertSorted_texts (name : String) {vs : List Value} (h : ∀ v ∈ vs, ¬ v.IsOdd) :
    ∃ sorted, insertSorted (.text name) vs = .ok sorted := by
  induction vs with
  | nil => exact ⟨_, rfl⟩
  | cons w rest ih =>
      obtain ⟨other, rfl⟩ := not_isOdd.mp (h w List.mem_cons_self)
      obtain ⟨inserted, hinserted⟩ := ih fun v hv => h v (List.mem_cons_of_mem _ hv)
      simp only [insertSorted, less]
      by_cases hless : name < other
      · exact ⟨.text name :: .text other :: rest, by simp [hless]; rfl⟩
      · exact ⟨.text other :: inserted, by simp [hless, hinserted]; rfl⟩

theorem foldlM_insertSorted_texts {vs before : List Value} (hbefore : ∀ v ∈ before, ¬ v.IsOdd)
    (h : ∀ v ∈ vs, ¬ v.IsOdd) : ∃ sorted, vs.foldlM (fun vs v => insertSorted v vs) before = .ok sorted := by
  induction vs generalizing before with
  | nil => exact ⟨before, rfl⟩
  | cons v rest ih =>
      obtain ⟨name, rfl⟩ := not_isOdd.mp (h v List.mem_cons_self)
      obtain ⟨inserted, hinserted⟩ := insertSorted_texts name hbefore
      have hmore : ∀ v ∈ inserted, ¬ v.IsOdd := by
        intro w hw
        rcases List.mem_cons.mp ((insertSorted_perm hinserted).mem_iff.mp hw) with rfl | hw
        · exact h _ List.mem_cons_self
        · exact hbefore w hw
      obtain ⟨sorted, hsorted⟩ := ih hmore fun w hw => h w (List.mem_cons_of_mem _ hw)
      exact ⟨sorted, by rw [List.foldlM_cons, hinserted]; exact hsorted⟩

/-- Texts can be sorted. -/
theorem sorted_texts {vs : List Value} (h : ∀ v ∈ vs, ¬ v.IsOdd) : ∃ sorted, Value.sorted vs = .ok sorted :=
  foldlM_insertSorted_texts (fun _ hv => absurd hv List.not_mem_nil) h

theorem texts?_cons_text (name : String) (rest : List Value) :
    texts? (.text name :: rest) = (texts? rest).map (name :: ·) := by
  unfold texts?
  rw [List.mapM_cons]
  cases List.mapM (m := Option) _ rest with
  | none => rfl
  | some names => rfl

theorem texts?_eq_none {vs : List Value} : texts? vs = none ↔ ∃ v ∈ vs, v.IsOdd := by
  induction vs with
  | nil => simp [texts?]
  | cons v rest ih =>
      rw [List.exists_mem_cons_iff]
      by_cases hodd : v.IsOdd
      · refine ⟨fun _ => Or.inl hodd, fun _ => ?_⟩
        unfold texts?
        rw [List.mapM_cons]
        cases v with
        | text name => exact absurd rfl (hodd name)
        | _ => rfl
      · obtain ⟨name, rfl⟩ := not_isOdd.mp hodd
        rw [texts?_cons_text, Option.map_eq_none_iff, ih, or_iff_right hodd]

end Value

section

variable [DigitLimit]

namespace Config

/-- Keys that are no settings are named in the words of a refusal unless one of them is no text. -/
theorem isRefusal_unknownKeysError (keys : List Value) :
    (unknownKeysError keys).isRefusal = false ↔ ∃ k ∈ keys, k.IsOdd := by
  unfold unknownKeysError
  cases hsorted : Value.sorted keys with
  | error e =>
      refine ⟨fun _ => ?_, fun _ => rfl⟩
      by_contra hnone
      obtain ⟨sorted, h⟩ := Value.sorted_texts fun k hk hodd => hnone ⟨k, hk, hodd⟩
      rw [hsorted] at h
      cases h
  | ok sorted =>
      have hmem (p : Value → Prop) : (∃ k ∈ keys, p k) ↔ ∃ k ∈ sorted, p k := by
        simp only [(Value.sorted_perm hsorted).mem_iff]
      rw [hmem, ← Value.texts?_eq_none]
      dsimp only
      cases htexts : Value.texts? sorted with
      | some names => exact ⟨fun h => (by cases h), fun h => (by cases h)⟩
      | none =>
          refine ⟨fun _ => rfl, fun _ => ?_⟩
          cases sorted with
          | nil => cases htexts
          | cons k rest => rfl

omit [DigitLimit] in
theorem keySetting?_of_isOdd {k : Value} (h : k.IsOdd) : keySetting? k = none := by
  unfold keySetting?
  split
  · exact absurd rfl (h _)
  · rfl

theorem fails_sectionChanges (es : List (Value × Value)) :
    Fails (·.isRefusal = false) (sectionChanges es) ↔ ∃ e ∈ es, e.1.IsOdd := by
  have hodd : (∃ e ∈ es, e.1.IsOdd) ↔ ∃ k ∈ (es.filter fun e => (keySetting? e.1).isNone).map (·.1), k.IsOdd := by
    constructor
    · rintro ⟨e, he, hodd⟩
      have hnone : (keySetting? e.1).isNone = true := by rw [keySetting?_of_isOdd hodd]; rfl
      exact ⟨e.1, List.mem_map_of_mem (List.mem_filter.mpr ⟨he, hnone⟩), hodd⟩
    · rintro ⟨k, hk, hodd⟩
      obtain ⟨e, he, rfl⟩ := List.mem_map.mp hk
      exact ⟨e, (List.mem_filter.mp he).1, hodd⟩
  rw [hodd]
  unfold sectionChanges
  cases es.filter fun e => (keySetting? e.1).isNone with
  | nil =>
      refine ⟨fun h => absurd h (not_fails_ok _), ?_⟩
      rintro ⟨k, hk, -⟩
      cases hk
  | cons first rest => exact fails_error.trans (isRefusal_unknownKeysError _)

end Config

/-! ### Values that are too large

There are two sizes.  An integer beyond the range of floats is one that the strict policy cannot
ask about, and one beyond the limit of digits, alone or anywhere inside a value, is one that no
text can be made of.  Only the second is met under the permissive policy as well, where a name
or a unit is turned into a text.
-/

/-- An integer beyond the range of floats. -/
def Value.IsLarge (v : Value) : Prop := ∃ i, v = .int i ∧ Decimal.fitsFloat i = false

omit [DigitLimit] in
theorem Value.isLarge_of_fault {v : Value} (h : v.numberFault? = some .tooLarge) : v.IsLarge := by
  unfold numberFault? at h
  split at h
  · rename_i i
    cases hfits : Decimal.fitsFloat i with
    | false => exact ⟨i, rfl, hfits⟩
    | true =>
        rw [hfits] at h
        cases h
  · split at h
    · cases h
    · cases h
  · cases h

omit [DigitLimit] in
theorem Value.IsLarge.fault {v : Value} (h : v.IsLarge) : v.numberFault? = some .tooLarge := by
  obtain ⟨i, rfl, hi⟩ := h
  rw [numberFault?, hi]
  rfl

/-- What can be refused as a number only by name, and has none: it is too large to be asked about, or to be told. -/
def Value.IsOversize (v : Value) : Prop := v.IsLarge ∨ v.isWritten = false

/-- A number is refused in words unless it is oversize. -/
theorem NumberError.isRefusal_eq_false {e : NumberError} (h : e.given.numberFault? = some e.fault) :
    e.isRefusal = false ↔ e.given.IsOversize := by
  have hlarge : e.fault = .tooLarge ↔ e.given.IsLarge := by
    constructor
    · exact fun hfault => Value.isLarge_of_fault (hfault ▸ h)
    · exact fun hlarge => Option.some.inj (h.symm.trans hlarge.fault)
  rw [isRefusal, Bool.and_eq_false_iff, decide_eq_false_iff_not, not_not, hlarge]
  rfl

/-- Settings of which the first fault that a reading finds has no words: a name or a unit that is no text and cannot be
made one, or a number that is oversize. -/
def Settings.Oversized (s : Settings) : Prop := Fails (·.isRefusal = false) (Config.ofSettings s)

theorem Settings.oversized_iff {s : Settings} : s.Oversized ↔
    s.finding? = some (.tooLong ⟨⟩) ∨ ∃ e, s.finding? = some (.number e) ∧ e.given.IsOversize := by
  have hfault {e : NumberError} (hfound : s.finding? = some (.number e)) : e.given.numberFault? = some e.fault := by
    obtain ⟨x, -, hx⟩ := List.exists_of_findSome?_eq_some hfound
    exact (Setting.finding?_number hx).fault
  constructor
  · rintro ⟨e, he, hkind⟩
    have hfound := (Config.answers_ofSettings s).isError.mp he
    cases e with
    | tooLong e => exact Or.inl hfound
    | number e => exact Or.inr ⟨e, hfound, (NumberError.isRefusal_eq_false (hfault hfound)).mp hkind⟩
    | _ => cases hkind
  · rintro (hfound | ⟨e, hfound, hoversize⟩)
    · exact ⟨_, (Config.answers_ofSettings s).isError.mpr hfound, rfl⟩
    · exact ⟨_, (Config.answers_ofSettings s).isError.mpr hfound,
        (NumberError.isRefusal_eq_false (hfault hfound)).mpr hoversize⟩

theorem Setting.finding?_tooLong {strict : Bool} {x : Setting} {v : Value} {e : TooLong}
    (h : x.finding? strict v = some (.tooLong e)) : x ∈ [name, unit] ∧ v.isWritten = false := by
  have hnumber {label : String} {w : Value} (hw : w.finding? strict label = some (.tooLong e)) : False := by
    unfold Value.finding? at hw
    split at hw
    · obtain ⟨fault, -, hfault⟩ := Option.map_eq_some_iff.mp hw
      cases hfault
    · cases hw
  by_cases hx : x ∈ [start, finish]
  · rw [finding?_of_position hx] at h
    split at h
    · cases h
    · split at h
      · obtain ⟨axis, -, hfound⟩ := List.exists_of_findSome?_eq_some h
        exact (hnumber hfound).elim
      · cases h
  · cases x with
    | name =>
        rw [finding?_name] at h
        refine ⟨List.mem_cons_self, ?_⟩
        cases hw : v.isWritten with
        | false => rfl
        | true => simp [hw] at h
    | unit =>
        refine ⟨List.mem_cons_of_mem _ List.mem_cons_self, ?_⟩
        cases hw : v.isWritten with
        | false => rfl
        | true =>
            rw [finding?_unit, hw] at h
            simp at h
    | feedrate | clearance =>
        rw [finding?_of_number (by decide)] at h
        split at h
        · cases h
        · exact (hnumber h).elim
    | positioning =>
        rw [finding?_positioning] at h
        split at h
        · cases h
        · split at h
          · cases h
          · split at h <;> cases h
    | start | finish => exact absurd (by decide) hx
    | lineNumbering | strict => cases h

/-- **What is oversized** gives a name or a unit that cannot be written, or it is strict and gives what is oversize as a
number or as an axis. -/
theorem Settings.Oversized.large {s : Settings} (h : s.Oversized) :
    (∃ x ∈ [Setting.name, .unit], (s x).isWritten = false)
    ∨ (s .strict).isTrue = true ∧ ((∃ x, (s x).IsOversize)
      ∨ ∃ x p, Position.ofValue? (s x) = .ok p ∧ ∃ v ∈ [p.x, p.y, p.z], v.IsOversize) := by
  rcases oversized_iff.mp h with hfound | ⟨e, hfound, hoversize⟩
  · obtain ⟨x, -, hx⟩ := List.exists_of_findSome?_eq_some hfound
    exact Or.inl ⟨x, Setting.finding?_tooLong hx⟩
  · obtain ⟨x, -, hx⟩ := List.exists_of_findSome?_eq_some hfound
    obtain ⟨hstrict, -, hv | ⟨p, hp, hv⟩⟩ := Setting.finding?_number hx
    · exact Or.inr ⟨hstrict, Or.inl ⟨x, hv ▸ hoversize⟩⟩
    · exact Or.inr ⟨hstrict, Or.inr ⟨x, p, hp, e.given, hv, hoversize⟩⟩

namespace Config

theorem fails_make (s : Settings) : Fails (·.isRefusal = false) (make s) ↔ s.Oversized := by
  rw [make, fails_mapError]
  exact Iff.rfl

/-- A section is refused without words for one of its keys, or for one of its values. -/
theorem fails_ofSection (es : List (Value × Value)) :
    Fails (·.isRefusal = false) (ofSection (.map es)) ↔
      (∃ e ∈ es, e.1.IsOdd) ∨ ∃ changes, sectionChanges es = .ok changes ∧ (Settings.standard.change changes).Oversized := by
  rw [ofSection_map]
  refine fails_bind.trans ?_
  simp only [fails_sectionChanges, fails_make]

omit [DigitLimit] in
theorem not_isOdd_entries (f : Fields) : ¬ ∃ e ∈ f.entries, e.1.IsOdd := by
  rintro ⟨e, he, hodd⟩
  obtain ⟨field, -, rfl⟩ := List.mem_map.mp he
  exact hodd field.1 rfl

end Config

/-! ### Programs of jobs

A directive brings along floats, and where it is left to its depth a zero.  All of these can be
asked about and written, so what a motion can still fail of without words is a number of the
configuration.  A program that has been opened has written those numbers.
-/

/-- What directives bring along: a float, nothing at all, or a finite number. -/
def Value.Fits (v : Value) : Prop := (∃ x, v = .ofFloat? x) ∨ v.numberFault? = none

namespace Value

variable {v : Value}

omit [DigitLimit] in
theorem Fits.not_isLarge (h : v.Fits) : ¬ v.IsLarge := by
  rintro ⟨i, rfl, hi⟩
  rcases h with ⟨x, hx⟩ | hfinite
  · cases x <;> cases hx
  · rw [numberFault?, hi] at hfinite
    cases hfinite

theorem Fits.isWritten_scale (h : v.Fits) (unit : String) : (v.scale (LengthUnit.factor unit)).isWritten = true := by
  rcases h with ⟨x, rfl⟩ | hfinite
  · cases x <;> rfl
  · exact isWritten_scale_of_finite hfinite unit

theorem Fits.isWritten (h : v.Fits) : v.isWritten = true := by
  rcases h with ⟨x, rfl⟩ | hfinite
  · cases x <;> rfl
  · exact isWritten_of_finite hfinite

end Value

/-- The numbers that an operation brings along. -/
def Operation.numbers : Operation → List Value
  | rapidMove target feed | linearMove target feed => [target.x, target.y, target.z, feed]
  | dropMill depth | raiseMill depth => [depth]
  | _ => []

namespace Config

variable {c : Config} {s : Settings} {op : Operation} {m : Motion} {e : ProgramError}

omit [DigitLimit] in
/-- The numbers of a motion are those that its operation brings along, and otherwise those of the configuration. -/
theorem numbers_of_motion {P : Value → Prop} (hnull : P .null) (hfeedrate : P c.feedrate) (hclearance : P c.clearance)
    (hop : ∀ v ∈ op.numbers, P v) (hm : op.motion? c = some m) : ∀ number ∈ m.numbers, P number.2 := by
  have hmotion {target : Position} {feed : Value} {code : PreparatoryCode}
      (ht : ∀ v ∈ [target.x, target.y, target.z], P v) (hf : P feed) :
      ∀ number ∈ Motion.numbers ⟨code, target, feed⟩, P number.2 := by
    intro number hnumber
    rcases List.mem_append.mp hnumber with haxis | hnumber
    · exact ht _ (Position.mem_of_components haxis)
    · rw [List.mem_singleton.mp hnumber]
      exact hf
  have hgiven {v standard : Value} (hv : P v) (hs : P standard) : P (if v.isNull then standard else v) := by
    split
    · exact hs
    · exact hv
  cases op with
  | rapidMove target feed =>
      obtain rfl := Option.some.inj hm
      exact hmotion (fun v hv => hop v (List.mem_append_left [feed] hv))
        (hgiven (hop feed (by simp [Operation.numbers])) hfeedrate)
  | linearMove target feed =>
      obtain rfl := Option.some.inj hm
      exact hmotion (fun v hv => hop v (List.mem_append_left [feed] hv))
        (hgiven (hop feed (by simp [Operation.numbers])) hfeedrate)
  | dropMill depth =>
      obtain rfl := Option.some.inj hm
      have hdepth : P depth := hop depth List.mem_cons_self
      exact hmotion (by simpa [hnull] using hdepth) hfeedrate
  | raiseMill depth =>
      obtain rfl := Option.some.inj hm
      have hdepth : P depth := hop depth List.mem_cons_self
      exact hmotion (by simpa [hnull] using hgiven hdepth hclearance) hfeedrate
  | _ => cases hm

/-- Numbers that fit are let through or refused in words. -/
theorem isRefusal_of_admits (h : c.admits m = .error e) (hfits : ∀ number ∈ m.numbers, number.2.Fits) :
    e.isRefusal = true := by
  have hwritten : m.checkWritten (LengthUnit.factor c.unit) = .ok () :=
    Motion.checkWritten_eq_ok.mpr fun number hnumber => (hfits number hnumber).isWritten_scale c.unit
  rw [admits, admitsUnder, hwritten] at h
  cases hjudged : m.numbers.forM c.judge with
  | ok _ =>
      rw [hjudged] at h
      cases h
  | error e' =>
      rw [hjudged] at h
      obtain rfl := Except.error.inj h
      obtain ⟨number, hnumber, herror⟩ := forM_eq_error hjudged
      have hfits := hfits number hnumber
      unfold judge at herror
      split at herror
      · unfold Value.checkFinite at herror
        cases hfault : number.2.numberFault? with
        | none =>
            rw [hfault] at herror
            cases herror
        | some fault =>
            rw [hfault] at herror
            obtain rfl := Except.error.inj herror
            cases hrefused : NumberError.isRefusal ⟨number.1, number.2, fault⟩ with
            | true => exact hrefused
            | false =>
                rcases (NumberError.isRefusal_eq_false hfault).mp hrefused with hlarge | hunwritten
                · exact absurd hlarge hfits.not_isLarge
                · rw [hfits.isWritten] at hunwritten
                  cases hunwritten
      · cases herror

/-- **A motion** that a job asks for is let through or refused in words, once the opening is written. -/
theorem isRefusal_of_motion (hc : c.Reads s) (hopening : c.strict = false → c.WritesOpening)
    (hop : ∀ v ∈ op.numbers, v.Fits) (hm : op.motion? c = some m) (h : c.admits m = .error e) : e.isRefusal = true := by
  cases hstrict : c.strict with
  | true =>
      -- The strict policy has asked about the numbers of the configuration when it was made.
      have hfeed := hc.feedrate
      have hclearance := hc.clearance
      rw [hstrict] at hfeed hclearance
      refine isRefusal_of_admits h (numbers_of_motion (Or.inl ⟨none, rfl⟩) (Or.inr ?_) (Or.inr ?_) hop hm)
      · exact finite_of_readNumber (by decide +kernel) hfeed
      · exact finite_of_readNumber (by decide +kernel) hclearance
  | false =>
      have hraise := Motion.isWritten_iff.mp (hopening hstrict).1
      have hm : m.IsWritten (LengthUnit.factor c.unit) :=
        numbers_of_motion (P := fun v => (v.scale (LengthUnit.factor c.unit)).isWritten = true) rfl
          (hraise c.feedrate (by simp [raise])) (hraise c.clearance (by simp [raise]))
          (fun v hv => (hop v hv).isWritten_scale c.unit) hm
      rw [(admits_of_permissive hstrict).mpr hm] at h
      cases h

end Config

namespace Writing

open Operation

variable {c : Config} {s : Settings} {name : String} {p q : Program} {e : ProgramError}

/-- **One operation** fails in words, if it fails. -/
theorem isRefusal_of_carryOut (hc : c.Reads s) (hopening : c.strict = false → c.WritesOpening) (hf : p.Follows c name)
    (hl : p.listing = none) {op : Operation} (hop : ∀ v ∈ op.numbers, v.Fits) (h : (carryOut op).run p = .error e q) :
    e.isRefusal = true := by
  cases hp : p.phase with
  | closed =>
      have hclosed := carryOut_of_closed hp hl op
      by_cases hlate : op.isRefusedLate = true
      · rw [if_pos hlate, h] at hclosed
        obtain rfl := (EStateM.Result.error.inj hclosed).1
        rw [hf.name]
        rfl
      · rw [if_neg hlate] at hclosed
        obtain ⟨r, hr, -⟩ := hclosed
        rw [h] at hr
        cases hr
  | opened =>
      have ho : p.IsOpen := ⟨hp, hl⟩
      cases ht : op.isTerminate with
      | false =>
          obtain ⟨r, -, hstep⟩ := carryOut_step ho hf ht
          rw [hstep] at h
          cases hadmitted : op.admitted c with
          | ok _ =>
              rw [hadmitted] at h
              cases h
          | error e' =>
              rw [hadmitted] at h
              obtain rfl := (EStateM.Result.error.inj h).1
              unfold admitted at hadmitted
              cases hm : op.motion? c with
              | none =>
                  rw [hm] at hadmitted
                  cases hadmitted
              | some m =>
                  rw [hm] at hadmitted
                  exact Config.isRefusal_of_motion hc hopening hop hm hadmitted
      | true =>
          cases op with
          | terminate force =>
              -- An end raises the mill to the clearance, as the opening has done.
              have hend : endAdmitted c force.isTrue = .ok () := by
                unfold endAdmitted
                rw [(hc.admits.mpr hopening).1, ite_self]
              obtain ⟨r, hr, -⟩ := terminate_run ho hf force
              rw [run_carryOut_terminate, hr, hend] at h
              cases h
          | _ => cases ht

/-- **Operations** fail in words, if they fail. -/
theorem isRefusal_of_carryOutAll (hc : c.Reads s) (hopening : c.strict = false → c.WritesOpening)
    (hf : p.Follows c name) (hl : p.listing = none) {ops : List Operation}
    (hops : ∀ op ∈ ops, ∀ v ∈ op.numbers, v.Fits) (h : (carryOutAll ops).run p = .error e q) : e.isRefusal = true := by
  induction ops generalizing p with
  | nil => cases h
  | cons op rest ih =>
      rw [carryOutAll_cons, EStateM.run_bind] at h
      cases hfirst : (carryOut op).run p with
      | error e' r =>
          rw [hfirst] at h
          obtain rfl := (EStateM.Result.error.inj h).1
          exact isRefusal_of_carryOut hc hopening hf hl (hops op List.mem_cons_self) hfirst
      | ok _ r =>
          rw [hfirst] at h
          obtain ⟨hf', hl'⟩ := carryOut_sound hf hl hfirst
          exact ih hf' hl' (fun op hop => hops op (List.mem_cons_of_mem _ hop)) h

end Writing

namespace Generator

variable {g : Generator} {s : Settings}

/-- Opened, the program of a configuration that was read fails in words, if it fails. -/
theorem not_fails_opened {c : Config} {name : String} (hc : c.Reads s) (hopening : c.strict = false → c.WritesOpening)
    {ops : List Operation} (hops : ∀ op ∈ ops, ∀ v ∈ op.numbers, v.Fits) :
    ¬ Fails (·.isRefusal = false)
      (Writing.answer ((do Writing.carryOutAll ops; Writing.eval : Writing String).run (.opened c name))) := by
  have ho := Program.isOpen_opened c name
  have hf := Program.follows_opened c name
  rintro ⟨e, he, hkind⟩
  rw [EStateM.run_bind] at he
  cases hall : (Writing.carryOutAll ops).run (.opened c name) with
  | error e' q =>
      rw [hall] at he
      obtain rfl := Except.error.inj he
      rw [Writing.isRefusal_of_carryOutAll hc hopening hf ho.listing hops hall] at hkind
      cases hkind
  | ok _ q =>
      obtain ⟨hq, hl⟩ := Writing.carryOutAll_sound hf ho.listing hall
      have hup : q.phase = .opened → ∃ up, q.millMotion q.clearance = .ok up := by
        intro _
        rw [hq.millMotion, (hc.admits.mpr hopening).1]
        exact ⟨_, rfl⟩
      obtain ⟨listing, r, hgives⟩ := Call.exists_listing (fun _ => hl) hq.strays hup
      have hrun := hgives.run_eq
      rw [Call.run_eval] at hrun
      rw [hall] at he
      dsimp only at he
      cases heval : Writing.eval.run q with
      | ok listing r =>
          rw [heval] at he
          cases he
      | error e' r =>
          rw [heval] at hrun
          cases hrun

/-- What a generator cannot open, it has no words for: only the writing can fail. -/
theorem fails_openNext (hc : g.config.Reads s) :
    Fails (·.isRefusal = false) g.openNext.1 ↔ ¬ g.config.CanOpen (g.names.getD .standard) := by
  have hopens := openNext_of_ofSettings (Config.ofSettings_eq_ok.mpr hc) (g.names.getD .standard)
  rw [Program.openNext_eq] at hopens
  rw [openNext_eq, checkName, nextName, ← hopens]
  refine fails_iff_not_ok fun e he => ?_
  rcases bind_eq_error.mp he with hname | ⟨_, -, hopen⟩
  · unfold Config.checkName at hname
    split at hname
    · cases hname
    · obtain ⟨_, -, rfl⟩ := mapError_eq_error.mp hname
      rfl
  · have hword {m : Motion} (hm : g.config.admits m = .error e) (hadmits : g.config.strict = false) :
        e.isRefusal = false := by
      rw [Config.admits, Config.admitsUnder, Config.judge_of_permissive hadmits] at hm
      obtain ⟨_, -, rfl⟩ := mapError_eq_error.mp hm
      rfl
    cases hstrict : g.config.strict with
    | true =>
        obtain ⟨hraise, happroach⟩ := hc.admits.mpr fun h => Bool.noConfusion (hstrict.symm.trans h)
        rw [Program.openNamed_eq, hraise, happroach] at hopen
        cases hopen
    | false =>
        rw [Program.openNamed_eq] at hopen
        rcases bind_eq_error.mp hopen with hraise | ⟨_, -, hopen⟩
        · exact hword hraise hstrict
        · rcases bind_eq_error.mp hopen with happroach | ⟨_, -, hopen⟩
          · exact hword happroach hstrict
          · cases hopen

/-- **A generator of a configuration that was read** has words for all that a job can ask for, once it can open its
program. -/
theorem fails_generate (hc : g.config.Reads s) {ops : List Operation} (hops : ∀ op ∈ ops, ∀ v ∈ op.numbers, v.Fits) :
    Fails (·.isRefusal = false) (g.generate ops).1 ↔ ¬ g.config.CanOpen (g.names.getD .standard) := by
  rw [fst_generate, ← fails_openNext hc]
  refine fails_bind.trans (or_iff_left ?_)
  rintro ⟨p, hp, hfails⟩
  obtain ⟨hraise, happroach, rfl⟩ := openNext_eq_ok hp
  exact not_fails_opened hc (hc.admits.mp ⟨hraise, happroach⟩) hops hfails

end Generator

/-! ### The numbers of directives

What a directive spells has gone through the fields of floats, so it is floats all the way.
-/

omit [DigitLimit] in
theorem Value.fits_ofFloat? (x : Option Float) : (Value.ofFloat? x).Fits := Or.inl ⟨x, rfl⟩

namespace Position

variable {p : Position}

omit [DigitLimit] in
theorem fits_of_items {items : List Value} (h : ∀ v ∈ items, v.Fits) (hp : ofItems? items = .ok p) :
    ∀ v ∈ [p.x, p.y, p.z], v.Fits := by
  have hnull : Value.null.Fits := Value.fits_ofFloat? none
  unfold ofItems? at hp
  split at hp
  · obtain rfl := Except.ok.inj hp
    simp [hnull]
  · obtain rfl := Except.ok.inj hp
    simpa [hnull] using h
  · obtain rfl := Except.ok.inj hp
    simpa [hnull] using h
  · obtain rfl := Except.ok.inj hp
    exact h
  · cases hp

omit [DigitLimit] in
theorem fits_axisEntry {es : List (Value × Value)} (h : ∀ e ∈ es, e.2.Fits) (axis : String) :
    (axisEntry axis es).Fits := by
  refine List.foldlRecOn es _ (Value.fits_ofFloat? none) fun found hfound e he => ?_
  dsimp only
  split
  · exact h e he
  · exact hfound

theorem eq_of_ofEntries? {entries : List (Value × Value)} (h : ofEntries? entries = .ok p) :
    p = ⟨axisEntry "x" entries, axisEntry "y" entries, axisEntry "z" entries⟩ := by
  unfold ofEntries? at h
  split at h
  · exact (Except.ok.inj h).symm
  · cases h

/-- A position that a directive spells has floats for its axes. -/
theorem fits_of_spec {spec : PositionSpec} (hp : ofValue? spec.toValue = .ok p) : ∀ v ∈ [p.x, p.y, p.z], v.Fits := by
  cases spec with
  | listed axes =>
      refine fits_of_items (fun v hv => ?_) hp
      obtain ⟨x, -, rfl⟩ := List.mem_map.mp hv
      exact Value.fits_ofFloat? x
  | named axes =>
      obtain rfl := eq_of_ofEntries? hp
      have hfits : ∀ e ∈ axes.map fun axis => (Value.text axis.1, Value.ofFloat? axis.2), e.2.Fits := by
        intro e he
        obtain ⟨axis, -, rfl⟩ := List.mem_map.mp he
        exact Value.fits_ofFloat? axis.2
      have haxis := fits_axisEntry hfits
      simp only [List.forall_mem_cons]
      exact ⟨haxis "x", haxis "y", haxis "z", fun v hv => absurd hv List.not_mem_nil⟩

end Position

namespace Directive

theorem fits_of_move {position : Option PositionSpec} {feed : Option Float} {p : Position}
    (hp : Position.ofValue? (orNull PositionSpec.toValue position) = .ok p) :
    ∀ v ∈ [p.x, p.y, p.z, Value.ofFloat? feed], v.Fits := by
  have haxes : ∀ v ∈ [p.x, p.y, p.z], v.Fits := by
    cases position with
    | none => cases hp
    | some spec => exact Position.fits_of_spec hp
  intro v hv
  rcases List.mem_append.mp (show v ∈ [p.x, p.y, p.z] ++ [Value.ofFloat? feed] from hv) with haxis | hfeed
  · exact haxes v haxis
  · rw [List.mem_singleton.mp hfeed]
    exact Value.fits_ofFloat? feed

theorem fits_of_operation {d : Directive} {op : Operation} (h : d.operation = .ok op) : ∀ v ∈ op.numbers, v.Fits := by
  have hdepth {v : Value} (hv : v.Fits) : ∀ w ∈ [v], w.Fits := by simpa using hv
  obtain ⟨kind, position, feedrate, depth, clockwise, flood, force, positioning, text⟩ := d
  cases kind with
  | feedRapid =>
      obtain ⟨p, hp, rfl⟩ := map_eq_ok.mp h
      exact fits_of_move (mapError_eq_ok.mp hp)
  | feedLinear =>
      obtain ⟨p, hp, rfl⟩ := map_eq_ok.mp h
      exact fits_of_move (mapError_eq_ok.mp hp)
  | dropMill =>
      obtain rfl := Except.ok.inj h
      cases depth with
      | none =>
          have hzero : (Value.int 0).numberFault? = none := by decide +kernel
          exact hdepth (Or.inr hzero)
      | some x => exact hdepth (Value.fits_ofFloat? (some x))
  | raiseMill =>
      obtain rfl := Except.ok.inj h
      exact hdepth (Value.fits_ofFloat? depth)
  | setPositioning =>
      obtain ⟨m, -, rfl⟩ := map_eq_ok.mp h
      exact fun v hv => absurd hv List.not_mem_nil
  | raw =>
      cases text with
      | none => cases h
      | some line =>
          have hline : Operation.ofLine line = .ok op := h
          obtain rfl := Operation.eq_rawLine_of_ofLine hline
          exact fun v hv => absurd hv List.not_mem_nil
  | _ =>
      obtain rfl := Except.ok.inj h
      exact fun v hv => absurd hv List.not_mem_nil

end Directive

/-- What the directives of a job ask for brings along floats and small numbers only. -/
theorem Job.fits_of_operations {job : Job} {ops : List Operation} (h : job.operations = .ok ops) :
    ∀ op ∈ ops, ∀ v ∈ op.numbers, v.Fits := by
  replace h := mapError_eq_ok.mp h
  generalize job.directives = ds at h
  induction ds generalizing ops with
  | nil =>
      obtain rfl := Except.ok.inj h
      exact fun op hop => absurd hop List.not_mem_nil
  | cons d rest ih =>
      rw [List.mapM_cons] at h
      obtain ⟨op, hop, h⟩ := bind_eq_ok.mp h
      obtain ⟨more, hmore, h⟩ := bind_eq_ok.mp h
      obtain rfl := Except.ok.inj h
      exact List.forall_mem_cons.mpr ⟨Directive.fits_of_operation hop, ih hmore⟩

end

end PartProgram
