/-
Giving a configuration its own values.

What settings are read as can be given as settings again, and the question is whether it is
read as itself.  Each reading leaves some values open and works on the others, so there are
two ways for it to go wrong: a value that was worked on might be worked on again, to another
effect, or it might be one of those that are left open.

The first never happens.  A name in upper case stays as it is and a unit that is trimmed and
in lower case stays as it is, and numbers, modes and positions are taken as they come.  The
second happens to the unit.  A name is not empty, because no value that counts as true is
written as nothing.  A unit of blanks is, once it is trimmed, and nobody asks then whether it
was left open.
-/
import PartProgram.Proofs.Casing
import PartProgram.Proofs.DecimalText
import PartProgram.Proofs.Interchange

namespace PartProgram

section

variable [DigitLimit]

/-! ### Texts of values

What counts as true is written as something.  For texts this is their truth itself, and for all
others the text has a digit, a letter or a bracket in it.
-/

namespace Decimal

omit [DigitLimit]

theorem digitChars_ne_nil (n : Nat) : digitChars n ≠ [] := (isDigits_digitChars n).ne_nil

theorem natText_ne_empty (n : Nat) : natText n ≠ "" := by
  simp [natText, digitChars_ne_nil]

theorem intText_ne_empty (i : Int) : intText i ≠ "" := by
  unfold intText
  split <;> simp [natText_ne_empty]

theorem scaledText_ne_empty (layout : Layout) (s : Scaled) : s.text layout ≠ "" := by
  unfold Scaled.text positionalText scientificText
  dsimp only
  split
  · simp
  · split
    · split
      · simp
      · split <;> simp [digitChars_ne_nil]
    · simp

theorem naturalText_ne_empty (x : Float) : naturalText x ≠ "" := by
  unfold naturalText
  split
  · simp [scaledText_ne_empty]
  · unfold nonFiniteText
    split
    · decide
    · split <;> decide

end Decimal

omit [DigitLimit] in
/-- What counts as true is not written as nothing. -/
theorem Value.plain_ne_empty {v : Value} (h : v.isTrue = true) : v.plain ≠ "" := by
  have hopening {opening rest : String} (hne : opening ≠ "") : opening ++ rest ≠ "" := by
    simp [hne]
  cases v with
  | null => cases h
  | bool b => cases b <;> decide
  | int i => exact Decimal.intText_ne_empty i
  | float x => exact Decimal.naturalText_ne_empty x
  | text s =>
      intro (hs : s = "")
      subst hs
      cases h
  | list items =>
      show "[" ++ _ ++ "]" ≠ ""
      rw [String.append_assoc]
      exact hopening (by decide)
  | tuple items =>
      match items with
      | [] => cases h
      | [item] =>
          show "(" ++ _ ++ ",)" ≠ ""
          rw [String.append_assoc]
          exact hopening (by decide)
      | a :: b :: rest =>
          show "(" ++ _ ++ ")" ≠ ""
          rw [String.append_assoc]
          exact hopening (by decide)
  | map entries =>
      show "\x7b" ++ _ ++ "\x7d" ≠ ""
      rw [String.append_assoc]
      exact hopening (by decide)
  | position x y z =>
      show "Position(x=" ++ _ ++ ", y=" ++ _ ++ ", z=" ++ _ ++ ")" ≠ ""
      simp only [String.append_assoc]
      exact hopening (by decide)
  | mode m => cases m <;> decide

namespace Config

variable {c : Config} {s : Settings}

/-! ### The values of a configuration as fields -/

/-- A configuration's own values as the fields of another. -/
def restated (c : Config) : Fields := Setting.all.map fun x => (x.key, c.value x)

/-- What a configuration's own values are read as: itself, but for a unit without a text. -/
def again (c : Config) : Config :=
  { c with given := c.value, unit := if c.unit = "" then "cm" else c.unit }

section

omit [DigitLimit]

theorem known_restated (c : Config) : c.restated.Known where
  nodup := by
    have hnames : c.restated.names = Setting.all.map Setting.key := List.map_map
    rw [hnames]
    decide
  settings := by
    intro k hk
    obtain ⟨field, hfield, rfl⟩ := List.mem_map.mp hk
    obtain ⟨x, -, rfl⟩ := List.mem_map.mp hfield
    rw [Setting.ofKey?_key]
    rfl

theorem lookup_restated (c : Config) (x : Setting) : c.restated.lookup x.key = some (c.value x) := by
  cases x <;> rfl

theorem change_restated (c : Config) (s : Settings) : s.change c.restated.changes = c.value := by
  funext x
  rw [Settings.change_fields c.known_restated.nodup, lookup_restated, Option.getD_some]

end

/-! ### The readings over again

Each reading is asked what it makes of its own result.  The name and the unit are texts that
were put in one case, so this is where it counts that doing so again changes nothing.
-/

theorem readName_value (h : c.Reads s) : readName (c.value .name) = .ok c.name := by
  have hname := h.name
  unfold readName at hname
  split at hname
  · rw [value, ← Except.ok.inj hname]
    rfl
  · rename_i htrue
    split at hname
    · have htrue : (s .name).isTrue = true := by simpa using htrue
      have hempty := Text.upper_ne_empty (Value.plain_ne_empty htrue)
      have hvalue : c.value .name = .text (Text.upper (s .name).plain) := by rw [value, ← Except.ok.inj hname]
      have htrue' : (Value.text (Text.upper (s .name).plain)).isTrue = true := by simpa [Value.isTrue] using hempty
      rw [hvalue, readName_of_written htrue' rfl, ← hname]
      exact congrArg (fun name => Except.ok (some name)) (Text.upper_upper _)
    · cases hname

/-- A unit is the text that its value spells. -/
theorem Reads.unit_eq (h : c.Reads s) : c.unit = unitText (s .unit) := (readUnit_eq_ok.mp h.unit).2.2.symm

/-- A unit spells itself unless it is empty, and then it is left open. -/
theorem unitText_value (h : c.Reads s) : unitText (c.value .unit) = c.again.unit := by
  have hopen : isOpen (c.value .unit) = decide (c.unit = "") := by
    show c.unit.isEmpty = decide (c.unit = "")
    rw [Bool.eq_iff_iff, String.isEmpty_iff, decide_eq_true_eq]
  have hsame : Text.lower (Text.trim c.unit) = c.unit := by
    rw [h.unit_eq, unitText]
    split
    · decide +kernel
    · exact Text.lower_trim_lower_trim _
  rw [unitText, hopen]
  by_cases hempty : c.unit = ""
  · simp [again, hempty]
  · simp only [again, hempty, decide_false, Bool.false_eq_true, if_false]
    exact hsame

theorem readUnit_value (h : c.Reads s) : readUnit c.strict (c.value .unit) = .ok c.again.unit := by
  refine readUnit_eq_ok.mpr ⟨rfl, fun hstrict => ?_, unitText_value h⟩
  rw [unitText_value h]
  by_cases hempty : c.unit = ""
  · have hcm : c.again.unit = "cm" := if_pos hempty
    rw [hcm]
    decide
  · have hkept : c.again.unit = c.unit := if_neg hempty
    rw [hkept, h.unit_eq]
    exact (readUnit_eq_ok.mp h.unit).2.1 hstrict

omit [DigitLimit] in
theorem readNumber_again {strict : Bool} {x : Setting} {standard v number : Value}
    (hs : standard.numberFault? = none) (h : readNumber strict x standard v = .ok number) :
    readNumber strict x standard number = .ok number := by
  unfold readNumber at h
  split at h
  · obtain rfl := Except.ok.inj h
    exact readNumber_of_finite hs
  · rename_i hnull
    obtain ⟨_, hcheck, rfl⟩ := map_eq_ok.mp h
    rw [readNumber, if_neg hnull, hcheck]
    rfl

theorem readPosition_again {x : Setting} {v : Value} {p : Position}
    (hc : c.strict = true → c.clearance.numberFault? = none)
    (h : readPosition c.strict x c.clearance v = .ok p) : readPosition c.strict x c.clearance p.toValue = .ok p := by
  have haxes : checkAxes c.strict x p = .ok () := by
    cases hstrict : c.strict with
    | false => exact checkAxes_permissive x p
    | true =>
        rw [hstrict] at h
        exact forM_eq_ok.mpr fun axis haxis =>
          checkNumber_strict.mpr (finite_of_readPosition (hc hstrict) h axis haxis)
  rw [readPosition, if_neg (show ¬ p.toValue.isNull = true from Bool.false_ne_true), Position.ofValue?_toValue]
  simp only [haxes]
  rfl

/-- A configuration's own values are read as it says. -/
theorem Reads.again (h : c.Reads s) : c.again.Reads c.value where
  given := rfl
  name := readName_value h
  unit := readUnit_value h
  mode := rfl
  feedrate := readNumber_again (by decide +kernel) h.feedrate
  clearance := readNumber_again (by decide +kernel) h.clearance
  start := readPosition_again (fun hstrict => finite_of_readNumber (by decide +kernel) (hstrict ▸ h.clearance)) h.start
  finish := readPosition_again (fun hstrict => finite_of_readNumber (by decide +kernel) (hstrict ▸ h.clearance)) h.finish
  lineNumbering := rfl
  strict := rfl

/-- The unit comes out without a text where blanks were given for it. -/
theorem unit_eq_empty_iff (h : c.Reads s) :
    c.unit = "" ↔ isOpen (s .unit) = false ∧ Text.trim (s .unit).plain = "" := by
  rw [h.unit_eq, unitText]
  split
  · rename_i hopen
    simp [hopen]
  · rename_i hopen
    rw [Text.lower_eq_empty]
    exact ⟨fun hempty => ⟨(Bool.not_eq_true _).mp hopen, hempty⟩, fun hempty => hempty.2⟩

/-- **Giving a configuration its own values** makes a configuration again, under either policy.
It is the same one exactly when its unit has a text.  Where it has none, blanks were given for
it, the policy is permissive, and numbers that were written as they are come out ten times as
large. -/
theorem ofFields_restated (hc : ofSettings s = .ok c) :
    ofFields c.restated = .ok c.again
    ∧ (c.again.Alike c ↔ c.unit ≠ "")
    ∧ (c.unit ≠ "" → c.again = { c with given := c.value })
    ∧ (c.unit = "" ↔ isOpen (s .unit) = false ∧ Text.trim (s .unit).plain = "")
    ∧ (c.unit = "" → c.strict = false ∧ LengthUnit.factor c.unit = 1 ∧ LengthUnit.factor c.again.unit = 10) := by
  have h := ofSettings_eq_ok.mp hc
  have hsame (hunit : c.unit ≠ "") : c.again = { c with given := c.value } := by
    rw [again, if_neg hunit]
  refine ⟨?_, ⟨?_, ?_⟩, hsame, unit_eq_empty_iff h, ?_⟩
  · rw [ofFields_of_known c.known_restated, change_restated]
    exact make_eq_ok.mpr h.again
  · intro halike hempty
    have hcm : c.again.unit = "cm" := if_pos hempty
    have hunit := halike.unit
    rw [hcm, hempty] at hunit
    exact absurd hunit (by decide)
  · intro hunit
    rw [hsame hunit]
    exact ⟨rfl, .refl _, .refl _, rfl, rfl, .refl _, .refl _, rfl, rfl⟩
  · intro hempty
    have hcm : c.again.unit = "cm" := if_pos hempty
    rw [hcm, hempty]
    refine ⟨?_, rfl, rfl⟩
    cases hstrict : c.strict with
    | false => rfl
    | true =>
        have hknown := (readUnit_eq_ok.mp h.unit).2.1 hstrict
        rw [← h.unit_eq, hempty] at hknown
        cases hknown

end Config

end

/-- A blank for the unit, and relative coordinates by their number. -/
theorem Config.ofFields_restated_of_blank :
    let s : Settings := (Settings.standard.put .unit (.text " ")).put .positioning (.text "1")
    let c : Config := { standard with given := s, unit := "", mode := .relative }
    ofSettings s = .ok c ∧ ofFields c.restated = .ok { c with given := c.value, unit := "cm" }
    ∧ ¬ Alike { c with given := c.value, unit := "cm" } c := by
  intro s c
  have hc : ofSettings s = .ok c := by
    have hunit : unitText (.text " ") = "" := by decide +kernel
    have htoken : DistanceMode.ofToken? (Text.lower (Text.trim "1")) = some .relative := by decide +kernel
    refine ofSettings_eq_ok.mpr ⟨rfl, rfl, congrArg Except.ok hunit, ?_, rfl, rfl, rfl, rfl, rfl, rfl⟩
    exact readMode_of_token (by decide) htoken
  obtain ⟨hagain, halike, -⟩ := ofFields_restated hc
  refine ⟨hc, hagain, ?_⟩
  intro hsame
  exact halike.mp hsame rfl

end PartProgram
