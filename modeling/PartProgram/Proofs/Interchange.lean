/-
Equal configurations under overrides.

Two configurations are equal as they are meant, and an override goes back to what was given.
So much of what was given is lost in the reading, and so little of it comes out again: a
position that was left open looks like one that was given above the origin, and a unit that is
not known looks like any text that it is trimmed to.  The first comes out when the clearance
is changed, because only the open one follows.  The second comes out when the strict policy is
turned on, because it judges what was given.  Nothing else does.

`heightAt` and `Survives` say what comes out.  An override of alike configurations is accepted
for both or for neither as long as what is left alone survives in both or in neither, and the
results are alike exactly when the positions that are left alone come to the same heights.
-/
import PartProgram.Proofs.Ending
import PartProgram.Proofs.Findings
import PartProgram.Proofs.Overrides

namespace PartProgram

/-! ### Configurations that are alike

Equality of values is no equivalence, since a float that is no number does not equal itself.
But a configuration that is compared with itself holds the very same values.  `Alike` therefore
takes a value for another also where they are the same, and every configuration is alike to
itself.
-/

/-- A value can be taken for another: it is the very same, or equal to it.  What is no number
equals nothing and is still taken for itself. -/
def Value.Alike (v w : Value) : Prop := v = w ∨ v.equal w = true

namespace Value.Alike

variable {v w : Value}

@[simp]
theorem refl (v : Value) : v.Alike v := Or.inl rfl

theorem isNull (h : v.Alike w) : v.isNull = w.isNull := by
  rcases h with rfl | h
  · rfl
  · cases v <;> cases w <;> first | rfl | simp [equal, integer?] at h

end Value.Alike

/-- Positions that are alike, axis by axis. -/
structure Position.Alike (p q : Position) : Prop where
  x : p.x.Alike q.x
  y : p.y.Alike q.y
  z : p.z.Alike q.z

theorem Position.Alike.refl (p : Position) : p.Alike p := ⟨.refl p.x, .refl p.y, .refl p.z⟩

namespace Config

/-- Configurations that are alike as they are meant, however their settings were given. -/
structure Alike (a b : Config) : Prop where
  name : a.name = b.name
  start : a.start.Alike b.start
  finish : a.finish.Alike b.finish
  unit : a.unit = b.unit
  mode : a.mode = b.mode
  feedrate : a.feedrate.Alike b.feedrate
  clearance : a.clearance.Alike b.clearance
  lineNumbering : a.lineNumbering = b.lineNumbering
  strict : a.strict = b.strict

variable {a b c a' b' : Config} {s t : Settings} {changes : Fields} {x : Setting}

/-- Equal configurations are alike. -/
theorem alike_of_equal (h : a.equal b = true) : a.Alike b := by
  have hposition {p q : Position} (hpq : p.equal q = true) : p.Alike q := by
    simp only [Position.equal, Bool.and_eq_true] at hpq
    obtain ⟨⟨hx, hy⟩, hz⟩ := hpq
    exact ⟨Or.inr hx, Or.inr hy, Or.inr hz⟩
  simp only [equal, Bool.and_eq_true, beq_iff_eq, decide_eq_true_eq] at h
  obtain ⟨⟨⟨⟨⟨⟨⟨⟨hname, hstart⟩, hfinish⟩, hunit⟩, hmode⟩, hfeedrate⟩, hclearance⟩, hnumbering⟩, hstrict⟩ := h
  exact ⟨hname, hposition hstart, hposition hfinish, hunit, hmode, Or.inr hfeedrate, Or.inr hclearance, hnumbering,
    hstrict⟩

theorem Alike.position (h : a.Alike b) (x : Setting) : (a.position x).Alike (b.position x) := by
  cases x with
  | finish => exact h.finish
  | _ => exact h.start

/-! ### What comes out of the given settings

An override reads what was given once more, under what may be another policy and another
clearance.  A setting that the changes leave alone has passed before, so it can fail only where
the policy has become strict; and what it is read as can differ only in the height of a position
left open.
-/

section

variable [DigitLimit]

/-- The height that a position comes to under another clearance when it is left alone: one
that was left open follows. -/
def heightAt (c : Config) (x : Setting) (clearance : Value) : Value :=
  if (c.given x).isNull then clearance else (c.position x).z

/-- The policy after changes. -/
def strictAfter (c : Config) (changes : Fields) : Bool :=
  (changes.lookup Setting.strict.key).elim c.strict Value.isTrue

/-- What was given and is left alone by changes stands up to the strict policy. -/
def Survives (c : Config) (changes : Fields) : Prop :=
  ∀ x : Setting, changes.lookup x.key = none → x.finding? true (c.given x) = none

theorem Reads.heightAt_clearance (h : c.Reads s) (hx : x ∈ [Setting.start, .finish]) :
    c.heightAt x c.clearance = (c.position x).z := by
  rw [heightAt, h.given]
  split
  · rename_i hopen
    rw [h.position_of_open hx hopen]
  · rfl

/-- An override reads what was given with the changes made. -/
theorem reads_override (h : changes.Known) :
    (c.overrideFields changes).1 = .ok a ↔ a.Reads (c.given.change changes.changes) := by
  rw [overrideFields_of_known c h, make_eq_ok]

/-- **What an override is accepted for**: the new values pass under the new policy, and what
is left alone survives where that policy was turned on. -/
theorem exists_override_iff (ha : a.Reads s) (h : changes.Known) :
    (∃ c, (a.overrideFields changes).1 = .ok c) ↔
      (∀ (x : Setting) v, changes.lookup x.key = some v → x.finding? (a.strictAfter changes) v = none)
        ∧ (a.strict = false → a.strictAfter changes = true → a.Survives changes) := by
  have hset (x : Setting) : a.given.change changes.changes x = (changes.lookup x.key).getD (a.given x) :=
    Settings.change_fields h.nodup a.given x
  have hstrict : ((changes.lookup Setting.strict.key).getD (a.given .strict)).isTrue = a.strictAfter changes := by
    rw [strictAfter, ha.strict, ha.given]
    cases changes.lookup Setting.strict.key <;> rfl
  have hmade : ∀ x : Setting, x.finding? a.strict (a.given x) = none := by
    rw [ha.strict, ha.given]
    exact exists_ofSettings_iff.mp ⟨a, ofSettings_eq_ok.mpr ha⟩
  simp only [reads_override h, ← ofSettings_eq_ok, exists_ofSettings_iff, hset, hstrict]
  constructor
  · intro hall
    refine ⟨?_, ?_⟩
    · intro x v hv
      have hx := hall x
      rwa [hv] at hx
    · intro _ hon x hleft
      have hx := hall x
      rwa [hleft, hon] at hx
  · rintro ⟨hnew, hleft⟩ x
    cases hx : changes.lookup x.key with
    | some v => exact hnew x v hx
    | none =>
        rw [Option.getD_none]
        cases hon : a.strictAfter changes with
        | false => exact Setting.finding?_relaxed (hmade x)
        | true =>
            cases hstrict : a.strict with
            | false => exact hleft hstrict hon x hx
            | true =>
                rw [← hstrict]
                exact hmade x

/-! ### What an override changes -/

omit [DigitLimit] in
/-- What is read of a setting alone: related before an override, related after it. -/
theorem related_of_override {ε α : Type} {R : α → α → Prop} (read : Value → Except ε α) (hrefl : ∀ u, R u u)
    (h : changes.Known) {u w u' w' : α} (hs : read (s x) = .ok u) (ht : read (t x) = .ok w)
    (hs' : read (s.change changes.changes x) = .ok u') (ht' : read (t.change changes.changes x) = .ok w')
    (hR : R u w) : R u' w' := by
  rw [Settings.change_fields h.nodup] at hs' ht'
  cases hx : changes.lookup x.key with
  | none =>
      rw [hx] at hs' ht'
      obtain rfl := Except.ok.inj (hs.symm.trans hs')
      obtain rfl := Except.ok.inj (ht.symm.trans ht')
      exact hR
  | some v =>
      rw [hx] at hs' ht'
      obtain rfl := Except.ok.inj (hs'.symm.trans ht')
      exact hrefl u'

/-- A position that is left alone changes in height or not at all. -/
theorem position_of_left (ha : a.Reads s) (ha' : a'.Reads (s.change changes.changes)) (h : changes.Known)
    (hx : x ∈ [Setting.start, .finish]) (hleft : changes.lookup x.key = none) :
    a'.position x = { a.position x with z := a.heightAt x a'.clearance } := by
  have hsame : s.change changes.changes x = s x := by
    rw [Settings.change_fields h.nodup, hleft, Option.getD_none]
  rw [heightAt, ha.given]
  cases hopen : (s x).isNull with
  | true =>
      rw [ha.position_of_open hx hopen, ha'.position_of_open hx (by rw [hsame, hopen])]
      rfl
  | false =>
      have hgiven := ha'.position_of_given hx (by rw [hsame, hopen])
      rw [hsame, ha.position_of_given hx hopen] at hgiven
      rw [Except.ok.inj hgiven]
      rfl

/-- A position that is changed is the same for both, or it is above the origin at the
clearance of each. -/
theorem position_of_changed (ha' : a'.Reads (s.change changes.changes)) (hb' : b'.Reads (t.change changes.changes))
    (h : changes.Known) (hx : x ∈ [Setting.start, .finish]) {v : Value} (hv : changes.lookup x.key = some v)
    (hclearance : a'.clearance.Alike b'.clearance) : (a'.position x).Alike (b'.position x) := by
  have hs : s.change changes.changes x = v := by rw [Settings.change_fields h.nodup, hv, Option.getD_some]
  have ht : t.change changes.changes x = v := by rw [Settings.change_fields h.nodup, hv, Option.getD_some]
  cases hopen : v.isNull with
  | true =>
      rw [ha'.position_of_open hx (by rw [hs, hopen]), hb'.position_of_open hx (by rw [ht, hopen])]
      exact ⟨.refl _, .refl _, hclearance⟩
  | false =>
      have hgiven := ha'.position_of_given hx (by rw [hs, hopen])
      rw [hs, ← ht, hb'.position_of_given hx (by rw [ht, hopen])] at hgiven
      rw [Except.ok.inj hgiven]
      exact .refl _

/-- Of alike configurations an override makes alike ones exactly when the positions that it
leaves alone come to the same heights. -/
theorem alike_override_iff (ha : a.Reads s) (hb : b.Reads t) (hab : a.Alike b) (h : changes.Known)
    (ha' : a'.Reads (s.change changes.changes)) (hb' : b'.Reads (t.change changes.changes)) :
    a'.Alike b' ↔ ∀ x ∈ [Setting.start, .finish], changes.lookup x.key = none →
      (a.heightAt x a'.clearance).Alike (b.heightAt x b'.clearance) := by
  constructor
  · intro halike x hx hleft
    have hz := (halike.position x).z
    rwa [position_of_left ha ha' h hx hleft, position_of_left hb hb' h hx hleft] at hz
  · intro hheights
    have hclearance : a'.clearance.Alike b'.clearance :=
      related_of_override _ .refl h (readNumber_relaxed ha.clearance) (readNumber_relaxed hb.clearance)
        (readNumber_relaxed ha'.clearance) (readNumber_relaxed hb'.clearance) hab.clearance
    have hposition : ∀ x ∈ [Setting.start, .finish], (a'.position x).Alike (b'.position x) := by
      intro x hx
      cases hleft : changes.lookup x.key with
      | some v => exact position_of_changed ha' hb' h hx hleft hclearance
      | none =>
          rw [position_of_left ha ha' h hx hleft, position_of_left hb hb' h hx hleft]
          exact ⟨(hab.position x).x, (hab.position x).y, hheights x hx hleft⟩
    -- What is read without a check is read as a result that is always there.
    have hread {α : Type} {u w : α} (huw : u = w) : (Except.ok w : Except SettingError α) = .ok u := by rw [huw]
    refine ⟨?_, hposition .start List.mem_cons_self, hposition .finish (List.mem_cons_of_mem _ List.mem_cons_self),
      ?_, ?_, ?_, hclearance, ?_, ?_⟩
    · exact related_of_override _ (fun _ => rfl) h ha.name hb.name ha'.name hb'.name hab.name
    · exact related_of_override _ (fun _ => rfl) h (readUnit_relaxed ha.unit) (readUnit_relaxed hb.unit)
        (readUnit_relaxed ha'.unit) (readUnit_relaxed hb'.unit) hab.unit
    · exact related_of_override _ (fun _ => rfl) h (readMode_relaxed ha.mode) (readMode_relaxed hb.mode)
        (readMode_relaxed ha'.mode) (readMode_relaxed hb'.mode) hab.mode
    · exact related_of_override _ .refl h (readNumber_relaxed ha.feedrate) (readNumber_relaxed hb.feedrate)
        (readNumber_relaxed ha'.feedrate) (readNumber_relaxed hb'.feedrate) hab.feedrate
    · exact related_of_override (fun v => .ok (readNumbering v)) (fun _ => rfl) h (hread ha.lineNumbering)
        (hread hb.lineNumbering) (hread ha'.lineNumbering) (hread hb'.lineNumbering) hab.lineNumbering
    · exact related_of_override (fun v => .ok v.isTrue) (fun _ => rfl) h (hread ha.strict)
        (hread hb.strict) (hread ha'.strict) (hread hb'.strict) hab.strict

/-- Where the clearance is left alone, so are the heights. -/
theorem heights_of_left (ha : a.Reads s) (hb : b.Reads t) (hab : a.Alike b) (h : changes.Known)
    (ha' : a'.Reads (s.change changes.changes)) (hb' : b'.Reads (t.change changes.changes))
    (hleft : changes.lookup Setting.clearance.key = none) (hx : x ∈ [Setting.start, .finish]) :
    (a.heightAt x a'.clearance).Alike (b.heightAt x b'.clearance) := by
  have hsame {u : Settings} {c c' : Config} (hc : c.Reads u) (hc' : c'.Reads (u.change changes.changes)) :
      c'.clearance = c.clearance := by
    have hread := readNumber_relaxed hc'.clearance
    rw [Settings.change_fields h.nodup, hleft, Option.getD_none, readNumber_relaxed hc.clearance] at hread
    exact (Except.ok.inj hread).symm
  rw [hsame ha ha', hsame hb hb', ha.heightAt_clearance hx, hb.heightAt_clearance hx]
  exact (hab.position x).z

/-! ### The opening

Numbers that are equal need not be written alike: a truth value is not multiplied by the factor
of a unit, and a great integer is written with all its digits where the float that equals it has
fewer.  So what alike configurations write is compared by the texts of the numbers, and a number
that cannot be written has none.
-/

/-- The numbers of the opening as they are written, nothing for one that cannot be. -/
def headNumbers (c : Config) : List (Option String) :=
  [c.feedrate, c.clearance, c.start.x, c.start.y, c.start.z].map fun v =>
    let scaled := v.scale (LengthUnit.factor c.unit)
    if scaled.isWritten then some scaled.numberText else none

theorem writesOpening_iff : c.WritesOpening ↔ ∀ text ∈ c.headNumbers, text.isSome = true := by
  have hnull (factor : Nat) : (Value.null.scale factor).isWritten = true := rfl
  have hsome (v : Value) : (if v.isWritten then some v.numberText else none).isSome = v.isWritten := by
    cases v.isWritten <;> rfl
  simp only [WritesOpening, Motion.isWritten_iff, raise, approach, headNumbers, List.map_cons, List.map_nil,
    List.forall_mem_cons, hnull, hsome, true_and, List.not_mem_nil, false_imp_iff, implies_true, and_true]
  constructor
  · rintro ⟨⟨hclearance, hfeed⟩, hx, hy, hz, -⟩
    exact ⟨hfeed, hclearance, hx, hy, hz⟩
  · rintro ⟨hfeed, hclearance, hx, hy, hz⟩
    exact ⟨⟨hclearance, hfeed⟩, hx, hy, hz, hfeed⟩

/-- Texts that are there for both are the same where they are written alike. -/
theorem numberText_of_written {v w : Value} (hv : v.isWritten = true)
    (h : (if v.isWritten then some v.numberText else none) = if w.isWritten then some w.numberText else none) :
    v.numberText = w.numberText := by
  rw [if_pos hv] at h
  split at h
  · exact Option.some.inj h
  · cases h

/-- Alike configurations that write their numbers alike begin alike. -/
theorem headLines_of_alike (h : a.Alike b) (hwrites : a.WritesOpening) (hnumbers : a.headNumbers = b.headNumbers)
    (name : String) : a.headLines name = b.headLines name := by
  obtain ⟨hup, hthere⟩ := hwrites
  rw [Motion.isWritten_iff] at hup hthere
  simp only [headNumbers, List.map_cons, List.map_nil, List.cons.injEq, and_true] at hnumbers
  obtain ⟨hfeed, hclearance, hx, hy, hz⟩ := hnumbers
  replace hfeed := numberText_of_written (hup _ (by simp [raise])) hfeed
  replace hclearance := numberText_of_written (hup _ (by simp [raise])) hclearance
  replace hx := numberText_of_written (hthere _ (by simp [approach])) hx
  replace hy := numberText_of_written (hthere _ (by simp [approach])) hy
  replace hz := numberText_of_written (hthere _ (by simp [approach])) hz
  have hword (letter : String) {v w : Value} (htext : (v.scale (LengthUnit.factor a.unit)).numberText
      = (w.scale (LengthUnit.factor b.unit)).numberText) :
      Motion.wordText (LengthUnit.factor a.unit) letter v = Motion.wordText (LengthUnit.factor b.unit) letter w := by
    rw [Motion.wordText, Motion.wordText, htext]
  have haxis (letter : String) {v w : Value} (halike : v.Alike w) (htext : (v.scale (LengthUnit.factor a.unit)).numberText
      = (w.scale (LengthUnit.factor b.unit)).numberText) :
      Motion.axisText (LengthUnit.factor a.unit) letter v = Motion.axisText (LengthUnit.factor b.unit) letter w := by
    rw [Motion.axisText, Motion.axisText, halike.isNull, hword letter htext]
  have hraise : a.motionText a.raise = b.motionText b.raise := by
    simp only [motionText, Motion.text, raise, haxis "Z" h.clearance hclearance, hword "F" hfeed]
    rfl
  have happroach : a.motionText a.approach = b.motionText b.approach := by
    simp only [motionText, Motion.text, approach, haxis "X" h.start.x hx, haxis "Y" h.start.y hy,
      haxis "Z" h.start.z hz, hword "F" hfeed]
  rw [headLines_eq, headLines_eq, hraise, happroach, h.unit, h.mode]

/-- The lines of a new program are those of the opening, numbered where lines are. -/
theorem lines_opened_of_alike (h : a.Alike b) (hwrites : a.WritesOpening) (hnumbers : a.headNumbers = b.headNumbers)
    (name : String) : (Program.opened a name).lines = (Program.opened b name).lines := by
  have hnumber : (Program.blank a name).nextNumber = (Program.blank b name).nextNumber := by
    show (if a.lineNumbering then 1 else 0) = if b.lineNumbering then 1 else 0
    rw [h.lineNumbering]
  refine Array.toList_inj.mp ?_
  rw [(Program.grown_opened a name).lines, (Program.grown_opened b name).lines, hnumber, headLines_of_alike h hwrites hnumbers]
  rfl

/-- Alike configurations that write their numbers alike are opened both or neither. -/
theorem canOpen_of_alike (h : a.Alike b) (hnumbers : a.headNumbers = b.headNumbers) (names : NameSource) :
    a.CanOpen names ↔ b.CanOpen names := by
  have hname : a.checkName names = b.checkName names := by rw [checkName, checkName, h.name]
  have hopening : a.WritesOpening ↔ b.WritesOpening := by rw [writesOpening_iff, writesOpening_iff, hnumbers]
  constructor
  · rintro ⟨hwritten, hopens⟩
    exact ⟨hname.symm.trans hwritten, fun hb => hopening.mp (hopens (h.strict.trans hb))⟩
  · rintro ⟨hwritten, hopens⟩
    exact ⟨hname.trans hwritten, fun ha => hopening.mpr (hopens (h.strict.symm.trans ha))⟩

end

/-- Equal configurations are not interchangeable.  A start that is given above the origin does
not follow the clearance, a distance mode that fell back does not pass the strict policy, and
a feed rate that is a truth value is equal to the number one and written without its unit. -/
theorem equal_of_different_overrides :
    let held : Config := { standard with
      given := Settings.standard.put .start (.tuple [.int 0, .int 0, .int 10]) }
    let raised : Config := { standard with
      given := Settings.standard.put .clearance (.int 20), clearance := .int 20
      start := ⟨.int 0, .int 0, .int 20⟩, finish := ⟨.int 0, .int 0, .int 20⟩ }
    let raisedHeld : Config := { raised with
      given := held.given.put .clearance (.int 20), start := ⟨.int 0, .int 0, .int 10⟩ }
    let fallen : Config := { standard with given := Settings.standard.put .positioning (.text "bogus") }
    let one : Config := { standard with given := Settings.standard.put .feedrate (.int 1), feedrate := .int 1 }
    let flag : Config := { standard with
      given := Settings.standard.put .feedrate (.bool true), feedrate := .bool true }
    (ofFields [] = .ok standard ∧ ofFields [("start", .tuple [.int 0, .int 0, .int 10])] = .ok held
      ∧ standard.equal held = true
      ∧ (standard.overrideFields [("clearance", .int 20)]).1 = .ok raised
      ∧ (held.overrideFields [("clearance", .int 20)]).1 = .ok raisedHeld
      ∧ raised.equal raisedHeld = false
      ∧ (Program.opened raised "1").lines ≠ (Program.opened raisedHeld "1").lines)
    ∧ (ofFields [("positioning", .text "bogus")] = .ok fallen ∧ standard.equal fallen = true
      ∧ (standard.overrideFields [("strict", .bool true)]).1
        = .ok { standard with given := Settings.standard.put .strict (.bool true), strict := true }
      ∧ (fallen.overrideFields [("strict", .bool true)]).1 = .error (.setting (.unknownMode ⟨.text "bogus"⟩)))
    ∧ (ofFields [("feedrate", .int 1)] = .ok one ∧ ofFields [("feedrate", .bool true)] = .ok flag
      ∧ one.equal flag = true
      ∧ (Program.opened one "1").lines ≠ (Program.opened flag "1").lines) := by
  intro held raised raisedHeld fallen one flag
  have hstrict : (standard.overrideFields [("strict", .bool true)]).1
      = .ok { standard with given := Settings.standard.put .strict (.bool true), strict := true } := by
    refine (overrideFields_single standard .strict (.bool true)).trans (make_eq_ok.mpr ?_)
    have hunit : unitText (.text "cm") = "cm" := by decide +kernel
    refine ⟨rfl, rfl, readUnit_of_known hunit (by decide), rfl, ?_, ?_, rfl, rfl, rfl, rfl⟩
    · exact readNumber_of_finite (v := .int 50) (by decide +kernel)
    · exact readNumber_of_finite (v := .int 10) (by decide +kernel)
  unfold raisedHeld raised held fallen one flag
  refine ⟨⟨rfl, rfl, ?_, rfl, rfl, ?_, ?_⟩, ⟨rfl, ?_, hstrict, rfl⟩, rfl, rfl, ?_, ?_⟩
  all_goals decide +kernel

section

variable [DigitLimit]

/-- **What equal configurations share under overrides.**  Unless the changes turn the strict
policy on and what they leave alone survives in one and not in the other, they are accepted
for both or for neither.  The results are alike exactly when the positions left alone come to
the same heights, so they are wherever the clearance is left alone.  Of alike configurations
that write their numbers alike both open programs or neither does, which is up to what can be
written at all, and these programs begin with the same lines. -/
theorem override_of_alike (hsa : ofSettings s = .ok a) (htb : ofSettings t = .ok b) (hab : a.Alike b)
    (h : changes.Known) :
    ((a.strict = false → a.strictAfter changes = true → (a.Survives changes ↔ b.Survives changes)) →
      ((∃ a', (a.overrideFields changes).1 = .ok a') ↔ ∃ b', (b.overrideFields changes).1 = .ok b'))
    ∧ ∀ a' b', (a.overrideFields changes).1 = .ok a' → (b.overrideFields changes).1 = .ok b' →
      (a'.Alike b' ↔ ∀ x ∈ [Setting.start, .finish], changes.lookup x.key = none →
        (a.heightAt x a'.clearance).Alike (b.heightAt x b'.clearance))
      ∧ (changes.lookup Setting.clearance.key = none → a'.Alike b')
      ∧ (a'.Alike b' → a'.headNumbers = b'.headNumbers → ∀ names,
        (a'.CanOpen names ↔ b'.CanOpen names)
        ∧ ((∃ p, (Program.openNext a' names).1 = .ok p) ↔ a'.CanOpen names)
        ∧ (a'.CanOpen names → ∃ p q,
          (Program.openNext a' names).1 = .ok p ∧ (Program.openNext b' names).1 = .ok q ∧ p.lines = q.lines)) := by
  have ha := ofSettings_eq_ok.mp hsa
  have hb := ofSettings_eq_ok.mp htb
  constructor
  · intro hsurvives
    have hafter : a.strictAfter changes = b.strictAfter changes := by rw [strictAfter, strictAfter, hab.strict]
    rw [exists_override_iff ha h, exists_override_iff hb h, ← hafter, ← hab.strict]
    refine and_congr_right fun _ => ?_
    exact ⟨fun hleft hoff hon => (hsurvives hoff hon).mp (hleft hoff hon),
      fun hleft hoff hon => (hsurvives hoff hon).mpr (hleft hoff hon)⟩
  · intro a' b' ha' hb'
    rw [reads_override h] at ha' hb'
    have hmadeA := ofSettings_eq_ok.mpr ha'
    have hmadeB := ofSettings_eq_ok.mpr hb'
    rw [ha.given] at ha'
    rw [hb.given] at hb'
    have halike := alike_override_iff ha hb hab h ha' hb'
    refine ⟨halike, ?_, ?_⟩
    · intro hleft
      refine halike.mpr ?_
      intro x hx _
      exact heights_of_left ha hb hab h ha' hb' hleft hx
    · intro hab' hnumbers names
      have hsame := canOpen_of_alike hab' hnumbers names
      refine ⟨hsame, openNext_of_ofSettings hmadeA names, fun hopens => ?_⟩
      obtain ⟨p, hp⟩ := (openNext_of_ofSettings hmadeA names).mpr hopens
      obtain ⟨q, hq⟩ := (openNext_of_ofSettings hmadeB names).mpr (hsame.mp hopens)
      refine ⟨p, q, hp, hq, ?_⟩
      have hname : (a'.nextName names).1 = (b'.nextName names).1 := by rw [nextName, nextName, hab'.name]
      rw [Program.opened_of_openNext hp, Program.opened_of_openNext hq, hname]
      exact lines_opened_of_alike hab' (writesOpening_of_openNext hp) hnumbers _

end

/-- The start is taken back together with the change of the clearance, so that both follow. -/
theorem override_of_alike_of_taken_back :
    let held : Config := { standard with
      given := Settings.standard.put .start (.tuple [.int 0, .int 0, .int 10]) }
    let changes : Fields := [("clearance", .int 20), ("start", .null)]
    let raised : Config := { standard with
      given := Settings.standard.change changes.changes, clearance := .int 20
      start := ⟨.int 0, .int 0, .int 20⟩, finish := ⟨.int 0, .int 0, .int 20⟩ }
    let raisedHeld : Config := { raised with given := held.given.change changes.changes }
    ofSettings Settings.standard = .ok standard ∧ ofSettings held.given = .ok held ∧ standard.Alike held
    ∧ changes.Known
    ∧ (standard.overrideFields changes).1 = .ok raised ∧ (held.overrideFields changes).1 = .ok raisedHeld
    ∧ raised.Alike raisedHeld
    ∧ ∃ p q, (Program.openNext raised (.sequential 1)).1 = .ok p ∧ (Program.openNext raisedHeld (.sequential 1)).1 = .ok q
      ∧ p.lines = q.lines := by
  intro held changes raised raisedHeld
  have hstandard : ofSettings Settings.standard = .ok standard := rfl
  have hheld : ofSettings held.given = .ok held := by
    unfold held
    rfl
  have halike : standard.Alike held := alike_of_equal (by unfold held; decide +kernel)
  have hknown : changes.Known := ⟨by decide, by decide⟩
  have hraised : (standard.overrideFields changes).1 = .ok raised := by
    unfold raised changes
    rfl
  have hraisedHeld : (held.overrideFields changes).1 = .ok raisedHeld := by
    unfold raisedHeld raised held changes
    rfl
  obtain ⟨-, hboth⟩ := override_of_alike hstandard hheld halike hknown
  obtain ⟨hiff, -, hopening⟩ := hboth raised raisedHeld hraised hraisedHeld
  have hsame : raised.Alike raisedHeld := by
    refine hiff.mpr ?_
    intro x hx hleft
    simp only [List.mem_cons, List.not_mem_nil, or_false] at hx
    rcases hx with rfl | rfl
    · cases hleft
    · exact .refl _
  have hnumbers : raised.headNumbers = raisedHeld.headNumbers := by unfold raisedHeld raised; decide +kernel
  have hopens : raised.CanOpen (.sequential 1) := ⟨rfl, fun _ => by unfold raised; decide +kernel⟩
  obtain ⟨-, -, hlines⟩ := hopening hsame hnumbers (.sequential 1)
  exact ⟨hstandard, hheld, halike, hknown, hraised, hraisedHeld, hsame, hlines hopens⟩

end Config

end PartProgram
