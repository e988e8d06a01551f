/-
The ways of giving a distance mode.

A mode can be given as a token, as an operation, in a call on a program, as a setting of a
strict configuration and in a directive of a job.  All of them come down to the same reading,
and for most values it is the same value that is read.  Only a directive looks at the kind of
the value first, and passes on a text or an integer: a float must be whole and becomes an
integer, and a truth value becomes zero or one.

A float makes no difference, because its text reads back as the float and a whole float is the
integer that it becomes.  A truth value does: its own text is a word that names no mode, so a
directive is the one way on which it is a mode.

That a directive does so is up to the conversions of `Field`, which are taken for granted: where a
text or an integer may stand, `Field.text` has the first word and `Field.integer` the second, and
it is `Field.integer` that makes a number of a truth value.
-/
import PartProgram.Job.Directive
import PartProgram.Program.Call
import PartProgram.Proofs.Conversion
import PartProgram.Proofs.NumericModes
import PartProgram.Proofs.Policy

namespace PartProgram

section

variable [DigitLimit]

/-! ### The ways -/

/-- A way of giving a distance mode, with what is given beside it. -/
inductive ModeWay where
  | token
  | operation
  /-- In a call on a program. -/
  | call (p : Program)
  /-- As a setting among others. -/
  | setting (s : Settings)
  /-- In a directive with other entries. -/
  | directive (others : List (Value × Value))

/-- The mode that an operation sets. -/
def Operation.mode? : Operation → Option DistanceMode
  | setMode m => some m
  | _ => none

/-- What is accepted, if anything is. -/
def Checked.accepted? {α : Type} : Checked α → Option α
  | accepted a => some a
  | refused _ => none

namespace ModeWay

/-- The entries of a directive, the mode among them. -/
def entries (others : List (Value × Value)) (v : Value) : List (Value × Value) := (.text "positioning", v) :: others

/-- The mode that a value is, given in this way; none where it is rejected. -/
def mode? (v : Value) : ModeWay → Option DistanceMode
  | token => (DistanceMode.ofValue? v).toOption
  | operation => (Operation.ofMode v).toOption.bind Operation.mode?
  | call p => ((Call.setMode v).run p).1.toOption.map fun _ => ((Call.setMode v).run p).2.mode
  | setting s => (Config.ofSettings (s.put .positioning v)).toOption.map Config.mode
  | directive others => (Directive.ofEntries (entries others v)).accepted?.bind fun d =>
    d.operation.toOption.bind Operation.mode?

/-- Nothing but the value can be at fault: the program takes directives, the settings are strict and the others of them
all right, and the entries make a directive that sets the mode. -/
def Sound : ModeWay → Prop
  | token | operation => True
  | call p => p.IsOpen
  | setting s => (s .strict).isTrue = true ∧ ∃ c, Config.ofSettings (s.put .positioning (.mode .absolute)) = .ok c
  | directive others =>
    ∃ d, Directive.ofEntries (entries others (.text "absolute")) = .accepted d ∧ d.kind = .setPositioning

/-- The mode that a truth value is, given in this way. -/
def ofTruth? (b : Bool) : ModeWay → Option DistanceMode
  | directive _ => some (if b then .relative else .absolute)
  | _ => none

/-! ### The mode of a value -/

/-- Of a value that is no mode itself the text counts. -/
theorem mode?_of_plain {v : Value} (h : ∀ m, v ≠ .mode m) :
    token.mode? v = DistanceMode.ofToken? (Text.lower (Text.trim v.plain)) := by
  show (DistanceMode.ofValue? v).toOption = _
  rw [DistanceMode.ofValue?_eq h]
  cases DistanceMode.ofToken? (Text.lower (Text.trim v.plain)) <;> rfl

/-- What is no text, number or mode is no mode. -/
theorem mode?_of_other {v : Value} (htext : ∀ s, v ≠ .text s) (hint : ∀ i, v ≠ .int i) (hfloat : ∀ x, v ≠ .float x)
    (hmode : ∀ m, v ≠ .mode m) : token.mode? v = none :=
  (mode?_of_plain hmode).trans (DistanceMode.ofToken?_of_other htext hint hfloat hmode)

theorem mode?_int (i : Int) : token.mode? (.int i) = DistanceMode.ofInt? (some i) :=
  (mode?_of_plain (by simp)).trans (DistanceMode.ofToken?_intText i)

theorem mode?_float (x : Float) : token.mode? (.float x) = DistanceMode.ofInt? (Value.float x).integer? :=
  (mode?_of_plain (by simp)).trans (DistanceMode.ofToken?_naturalText x)

/-- An operation passes the value on. -/
theorem mode?_operation (v : Value) : operation.mode? v = token.mode? v := by
  show (Operation.ofMode v).toOption.bind Operation.mode? = (DistanceMode.ofValue? v).toOption
  unfold Operation.ofMode
  cases DistanceMode.ofValue? v <;> rfl

/-- So does a call on a program that takes directives. -/
theorem mode?_call {p : Program} (ho : p.IsOpen) (v : Value) : (call p).mode? v = token.mode? v := by
  show (((Call.setMode v).run p).1.toOption.map fun _ => ((Call.setMode v).run p).2.mode)
    = (DistanceMode.ofValue? v).toOption
  rw [Call.run_of_open ho (c := .setMode v) rfl, Call.modeAfter]
  cases DistanceMode.ofValue? v <;> rfl

/-- A strict setting is read by itself, and what is not left open is read as a token. -/
theorem mode?_setting {s : Settings} (h : (setting s).Sound) {v : Value} (hopen : Config.isOpen v = false) :
    (setting s).mode? v = token.mode? v := by
  obtain ⟨hstrict, c, hc⟩ := h
  have hbase := Config.ofSettings_eq_ok.mp hc
  have hpolicy : c.strict = true := hbase.strict.trans hstrict
  have hread : Config.readMode c.strict v = (DistanceMode.ofValue? v).mapError .unknownMode := by
    rw [Config.readMode, hopen, if_neg Bool.false_ne_true, hpolicy]
    cases DistanceMode.ofValue? v <;> rfl
  show (Config.ofSettings (s.put .positioning v)).toOption.map Config.mode = (DistanceMode.ofValue? v).toOption
  cases hv : DistanceMode.ofValue? v with
  | ok m =>
      rw [hv] at hread
      have hmade : Config.ofSettings (s.put .positioning v) = .ok { c with given := s.put .positioning v, mode := m } :=
        Config.ofSettings_eq_ok.mpr ⟨rfl, hbase.name, hbase.unit, hread, hbase.feedrate, hbase.clearance, hbase.start,
          hbase.finish, hbase.lineNumbering, hbase.strict⟩
      rw [hmade]
      rfl
  | error e =>
      rw [hv] at hread
      cases hmade : Config.ofSettings (s.put .positioning v) with
      | error e' => rfl
      | ok c' =>
          have hreads := Config.ofSettings_eq_ok.mp hmade
          have hsame : c'.strict = c.strict := hreads.strict.trans hbase.strict.symm
          have hmode := hreads.mode
          rw [hsame] at hmode
          cases hread.symm.trans hmode

/-! ### Directives -/

omit [DigitLimit] in
/-- The token of a directive is read from the value, and the other fields are read without it. -/
theorem reads_entries {others : List (Value × Value)} {d d' : Directive} {u v : Value}
    (h : Directive.Reads (entries others u) d) (hread : Field.optional ModeToken.read v = .accepted d'.positioning)
    (hd : d' = { d with positioning := d'.positioning }) : Directive.Reads (entries others v) d' := by
  rw [hd]
  exact ⟨h.kind, h.position, h.feedrate, h.depth, h.clockwise, h.flood, h.force,
    Checked.under_eq_accepted.mpr hread, h.text⟩

/-- A directive that sets the mode passes on the token that it makes of the value. -/
theorem mode?_directive {others : List (Value × Value)} (h : (directive others).Sound) {v : Value}
    (hnull : v.isNull = false) :
    (directive others).mode? v = (ModeToken.read v).accepted?.bind fun made => token.mode? made.toValue := by
  obtain ⟨d, hd, hkind⟩ := h
  obtain ⟨hreads, hothers, -⟩ := Directive.ofEntries_eq_accepted.mp hd
  have hoptional : Field.optional ModeToken.read v = (ModeToken.read v).map some := by
    rw [Field.optional, hnull, if_neg Bool.false_ne_true]
  show ((Directive.ofEntries (entries others v)).accepted?.bind fun d => d.operation.toOption.bind Operation.mode?) = _
  cases hmade : ModeToken.read v with
  | accepted made =>
      obtain ⟨kind, position, feedrate, depth, clockwise, flood, force, positioning, text⟩ := d
      obtain rfl : kind = .setPositioning := hkind
      have hentries : Directive.ofEntries (entries others v) = .accepted
          ⟨.setPositioning, position, feedrate, depth, clockwise, flood, force, some made, text⟩ :=
        Directive.ofEntries_eq_accepted.mpr ⟨reads_entries hreads (by rw [hoptional, hmade]; rfl) rfl, hothers, rfl⟩
      rw [hentries]
      exact mode?_operation made.toValue
  | refused issues =>
      cases hentries : Directive.ofEntries (entries others v) with
      | refused _ => rfl
      | accepted d' =>
          have hread := Checked.under_eq_accepted.mp (Directive.ofEntries_eq_accepted.mp hentries).1.positioning
          rw [hoptional, hmade] at hread
          cases hread

omit [DigitLimit] in
/-- Reading a whole number within 64 bits loses no number of a mode. -/
theorem ofInt?_wholeNumber (x : Float) :
    (Field.wholeNumber x).accepted?.bind (fun i => DistanceMode.ofInt? (some i))
      = DistanceMode.ofInt? (Value.float x).integer? := by
  show _ = DistanceMode.ofInt? ((Decimal.Binary.ofFloat? x).bind (·.toInt?))
  rw [Field.wholeNumber]
  cases Decimal.Binary.ofFloat? x with
  | none => rfl
  | some b =>
      cases hi : b.toInt? with
      | none =>
          simp only [hi, Option.bind_some]
          rfl
      | some i =>
          simp only [hi, Option.bind_some]
          split
          · rfl
          · rename_i hlarge
            have hzero : i ≠ 0 := by omega
            have hone : i ≠ 1 := by omega
            simp [DistanceMode.ofInt?, hzero, hone, Checked.problem, Checked.accepted?]

/-- What a directive makes of a value that is no truth value has the mode of the value. -/
theorem mode?_of_read {v : Value} (hbool : ∀ b, v ≠ .bool b) :
    ((ModeToken.read v).accepted?.bind fun made => token.mode? made.toValue) = token.mode? v := by
  cases v with
  | bool b => exact absurd rfl (hbool b)
  | mode m =>
      have hread : (ModeToken.read (.mode m)).accepted? = some (.text (Decimal.natText m.number)) := rfl
      have htoken : DistanceMode.ofToken? (Text.lower (Text.trim (Decimal.natText m.number))) = some m := by
        cases m <;> decide +kernel
      rw [hread, Option.bind_some, ModeToken.toValue]
      show (DistanceMode.ofValue? (.text (Decimal.natText m.number))).toOption = some m
      rw [DistanceMode.ofValue?_text htoken]
      rfl
  | text s =>
      have hread : (ModeToken.read (.text s)).accepted? = some (.text s) := rfl
      rw [hread, Option.bind_some, ModeToken.toValue]
  | int i =>
      have hread : (ModeToken.read (.int i)).accepted? = some (.int i) := rfl
      rw [hread, Option.bind_some, ModeToken.toValue]
  | float x =>
      have hread : (ModeToken.read (.float x)).accepted? = (Field.wholeNumber x).accepted?.map .int := by
        unfold ModeToken.read
        rw [show Field.integer (.float x) = Field.wholeNumber x from rfl]
        cases Field.wholeNumber x <;> rfl
      rw [hread, mode?_float, ← ofInt?_wholeNumber, Option.bind_map]
      refine congrArg _ (funext fun i => ?_)
      rw [Function.comp_apply, ModeToken.toValue, mode?_int]
  | _ =>
      rw [mode?_of_other (by simp) (by simp) (by simp) (by simp)]
      rfl

/-- **All ways read alike what is no truth value.**  Where nothing else is at fault and the mode is not left open, every
way takes the values that a token can be, for the same modes, except for the truth values: a directive takes false for
absolute and true for relative, and every other way rejects them. -/
theorem mode?_eq_token_iff {v : Value} (hopen : Config.isOpen v = false) :
    ((∀ w : ModeWay, w.Sound → w.mode? v = token.mode? v) ↔ ∀ b, v ≠ .bool b)
    ∧ ∀ b, v = .bool b → ∀ w : ModeWay, w.Sound → w.mode? v = w.ofTruth? b := by
  have hnull : v.isNull = false := by
    cases v with
    | null => cases hopen
    | _ => rfl
  have hother (w : ModeWay) (hw : w.Sound) (hdirective : ∀ others, w ≠ directive others) :
      w.mode? v = token.mode? v := by
    cases w with
    | token => rfl
    | operation => exact mode?_operation v
    | call p => exact mode?_call hw v
    | setting s => exact mode?_setting hw hopen
    | directive others => exact absurd rfl (hdirective others)
  have htruth (b : Bool) (hb : v = .bool b) (w : ModeWay) (hw : w.Sound) : w.mode? v = w.ofTruth? b := by
    have hnone : token.mode? v = none := by
      subst hb
      exact mode?_of_other (by simp) (by simp) (by simp) (by simp)
    cases w with
    | directive others =>
        have hread : (ModeToken.read (.bool b)).accepted? = some (.int (if b then 1 else 0)) := by cases b <;> rfl
        rw [mode?_directive hw hnull, hb, ofTruth?, hread, Option.bind_some, ModeToken.toValue, mode?_int]
        cases b <;> rfl
    | _ => exact (hother _ hw (by simp)).trans hnone
  refine ⟨⟨fun hall b hb => ?_, fun hbool w hw => ?_⟩, htruth⟩
  · have hsound : (directive [(.text "op", .text "set_positioning")]).Sound := ⟨_, rfl, rfl⟩
    have htaken := htruth b hb _ hsound
    rw [hall _ hsound, htruth b hb token trivial] at htaken
    cases htaken
  · cases w with
    | directive others => exact (mode?_directive hw hnull).trans (mode?_of_read hbool)
    | _ => exact hother _ hw (by simp)

end ModeWay

end

/-- The float one and the truth value true, in a directive and as tokens. -/
theorem ModeWay.mode?_eq_token_iff_of_one :
    let job := directive [(.text "op", .text "set_positioning"), (.text "text", .text "unused")]
    job.Sound ∧ job.mode? (.float 1) = token.mode? (.float 1) ∧ token.mode? (.float 1) = some .relative
    ∧ job.mode? (.bool true) = some .relative ∧ token.mode? (.bool true) = none := by
  intro job
  have hsound : job.Sound := ⟨_, rfl, rfl⟩
  have hfloat := (mode?_eq_token_iff (v := .float 1) rfl).1.mpr (by simp) job hsound
  have htruth := (mode?_eq_token_iff (v := .bool true) rfl).2 true rfl
  refine ⟨hsound, hfloat, ?_, htruth job hsound, htruth token trivial⟩
  rw [mode?_float]
  decide +kernel

end PartProgram
