/-
Numerals as they are spelled loosely.

The grammar of a loose numeral is given here as rules, without the reader: white space around
it, a sign, digits of any script with single underscores between them, a point among them or
at either end, and a power of ten.  Each rule also says which number is spelled.

The reader gets there in steps that each bring the text nearer to a narrow numeral.  Trimming
leaves the characters between the blanks, lower case touches the mark of the power of ten and
nothing else, every digit becomes an ASCII one, and the underscores go.  What a step does to
the characters of one rule does not depend on the rest, so each step is followed rule by rule.
-/
import Mathlib.Data.List.Basic
import PartProgram.Proofs.Casing
import PartProgram.Proofs.DecimalValue
import PartProgram.Word.DistanceMode

namespace PartProgram.Decimal

/-! ### The grammar -/

/-- The number that digits spell, each ten times as much as the next. -/
def positional (ds : List Nat) : Nat := ds.foldl (fun n d => n * 10 + d) 0

/-- A run of digits of any script, with single underscores between them, and what the digits are. -/
inductive DigitRun : List Char → List Nat → Prop
  | last {c d} (h : Text.digitValue? c = some d) : DigitRun [c] [d]
  | next {c d cs ds} (h : Text.digitValue? c = some d) (more : DigitRun cs ds) : DigitRun (c :: cs) (d :: ds)
  | grouped {c d cs ds} (h : Text.digitValue? c = some d) (more : DigitRun cs ds) : DigitRun (c :: '_' :: cs) (d :: ds)

/-- Digits around a point, those before it and those behind it; the point may be left out, or the digits on one side
of it. -/
inductive PointRun : List Char → List Nat → List Nat → Prop
  | whole {cs ds} (h : DigitRun cs ds) : PointRun cs ds []
  | pointed {cs ds} (h : DigitRun cs ds) : PointRun (cs ++ ['.']) ds []
  | fraction {fs gs} (h : DigitRun fs gs) : PointRun ('.' :: fs) [] gs
  | around {cs ds fs gs} (h : DigitRun cs ds) (h' : DigitRun fs gs) : PointRun (cs ++ '.' :: fs) ds gs

/-- A sign that may be left out, and whether it is a minus sign. -/
inductive SignRun : List Char → Bool → Prop
  | none : SignRun [] false
  | plus : SignRun ['+'] false
  | minus : SignRun ['-'] true

/-- A power of ten that may be left out, and its exponent. -/
inductive PowerRun : List Char → Int → Prop
  | none : PowerRun [] 0
  | power {mark negative sign cs ds} (h : mark = 'e' ∨ mark = 'E') (hsign : SignRun sign negative)
      (hdigits : DigitRun cs ds) :
      PowerRun (mark :: (sign ++ cs)) (if negative then -(positional ds : Int) else positional ds)

/-- A text that is a numeral between blanks, and the number that it spells. -/
inductive IsNumeral : String → ℚ → Prop
  | intro {before after sign cs power : List Char} {negative : Bool} {ds gs : List Nat} {e : Int}
      (hbefore : ∀ c ∈ before, Text.isBlank c = true) (hafter : ∀ c ∈ after, Text.isBlank c = true)
      (hsign : SignRun sign negative) (hpoint : PointRun cs ds gs) (hpower : PowerRun power e) :
      IsNumeral (String.ofList (before ++ (sign ++ (cs ++ power)) ++ after))
        (signed negative (positional (ds ++ gs) * 10 ^ (e - gs.length)))

/-! ### The characters of a numeral

The first two steps of the reader are made for texts of all kinds and are harmless here, since
no character of a numeral is blank and only one of them has a small letter.  For digits of other
scripts this is a computation over their code points.
-/

/-- The code points of the digits of all scripts. -/
def digitPoints : List Nat := (0x30 :: Text.digitZeros).flatMap fun z => Text.CaseRun.points ⟨z, z + 9, 1, 0⟩

theorem mem_digitPoints {c : Char} {d : Nat} (h : Text.digitValue? c = some d) : c.toNat ∈ digitPoints ∧ d < 10 := by
  have hpoint {z : Nat} (hz : z ∈ 0x30 :: Text.digitZeros) (hlow : z ≤ c.toNat) (hhigh : c.toNat < z + 10) :
      c.toNat ∈ digitPoints := by
    refine List.mem_flatMap.mpr ⟨z, hz, Text.CaseRun.mem_points ?_⟩
    simp only [Text.CaseRun.contains, Nat.mod_one, decide_true, Bool.and_true, Bool.and_eq_true, decide_eq_true_eq]
    omega
  unfold Text.digitValue? at h
  split at h
  · rename_i hascii
    have hlow : 0x30 ≤ c.toNat := hascii.1
    have hhigh : c.toNat ≤ 0x39 := hascii.2
    obtain rfl := Option.some.inj h
    refine ⟨hpoint List.mem_cons_self hlow (by omega), ?_⟩
    show c.toNat - 0x30 < 10
    omega
  · split at h
    · cases h
    · obtain ⟨z, hz, rfl⟩ := Option.map_eq_some_iff.mp h
      have hrange := List.find?_some hz
      rw [Bool.and_eq_true, decide_eq_true_eq, decide_eq_true_eq] at hrange
      refine ⟨hpoint (List.mem_cons_of_mem _ (List.mem_of_find?_eq_some hz)) hrange.1 hrange.2, ?_⟩
      omega

/-- Digits are neither blank nor letters of either case. -/
theorem apart_digits {n : Nat} (hn : n ∈ digitPoints) : n ∉ Text.blankPoints ∧ n ∉ Text.letters 'A' 'Z'
    ∧ n ∉ Text.movers Text.lowerSequences Text.lowerRuns ∧ n ∉ [0x3a3] := by
  have hbits : Text.bits (Text.blankPoints ++ (Text.letters 'A' 'Z'
      ++ (Text.movers Text.lowerSequences Text.lowerRuns ++ [0x3a3]))) &&& Text.bits digitPoints = 0 := by
    decide +kernel
  have happart := Text.not_mem_of_bits hbits hn
  simp only [List.mem_append, not_or] at happart
  exact happart

/-- A character that trimming keeps, and that lower case keeps too unless it is the great mark of a power of ten. -/
structure IsPart (c : Char) : Prop where
  not_blank : Text.isBlank c = false
  low : c = 'E' ∨ Text.IsLow c

theorem isPart_of_digit {c : Char} {d : Nat} (h : Text.digitValue? c = some d) : IsPart c := by
  obtain ⟨hblank, hletter, hmover, hsigma⟩ := apart_digits (mem_digitPoints h).1
  refine ⟨?_, Or.inr ⟨?_, fun heq => hsigma (List.mem_singleton.mpr heq)⟩⟩
  · rw [← Bool.not_eq_true]
    exact fun hb => hblank (Text.isBlank_of_mem_blankPoints hb)
  · rw [Text.lowerChar_eq]
    by_cases hascii : c.toNat < 0x80
    · exact Text.settles_lower.changed_of_ascii hascii hletter
    · exact Text.changed_of_not_mover (by omega) hmover

theorem isPart_of_mark {c : Char} (h : c ∈ ['_', '.', '+', '-', 'e', 'E']) : IsPart c := by
  have hall : ∀ c ∈ ['_', '.', '+', '-', 'e', 'E'], Text.isBlank c = false
      ∧ (c = 'E' ∨ (Text.lowerChar c = [c] ∧ c.toNat ≠ 0x3a3)) := by
    simp only [List.mem_cons, List.not_mem_nil, or_false, forall_eq_or_imp, forall_eq]
    decide
  obtain ⟨hblank, hlow⟩ := hall c h
  exact ⟨hblank, hlow.imp_right fun h => ⟨h.1, h.2⟩⟩

theorem DigitRun.isPart {cs : List Char} {ds : List Nat} (h : DigitRun cs ds) : ∀ c ∈ cs, IsPart c := by
  induction h with
  | last h =>
      intro c hc
      rw [List.mem_singleton] at hc
      exact hc ▸ isPart_of_digit h
  | next h more ih =>
      rintro c (_ | ⟨_, hc⟩)
      · exact isPart_of_digit h
      · exact ih c hc
  | grouped h more ih =>
      rintro c (_ | ⟨_, _ | ⟨_, hc⟩⟩)
      · exact isPart_of_digit h
      · exact isPart_of_mark (by decide)
      · exact ih c hc

theorem SignRun.isPart {sign : List Char} {negative : Bool} (h : SignRun sign negative) : ∀ c ∈ sign, IsPart c := by
  cases h with
  | none => simp
  | plus => simpa using isPart_of_mark (c := '+') (by decide)
  | minus => simpa using isPart_of_mark (c := '-') (by decide)

theorem PointRun.isPart {cs : List Char} {ds gs : List Nat} (h : PointRun cs ds gs) : ∀ c ∈ cs, IsPart c := by
  have hpoint : IsPart '.' := isPart_of_mark (by decide)
  cases h with
  | whole h => exact h.isPart
  | pointed h =>
      intro c hc
      rcases List.mem_append.mp hc with hc | hc
      · exact h.isPart c hc
      · rwa [List.mem_singleton.mp hc]
  | fraction h =>
      rintro c (_ | ⟨_, hc⟩)
      · exact hpoint
      · exact h.isPart c hc
  | around h h' =>
      intro c hc
      rcases List.mem_append.mp hc with hc | hc
      · exact h.isPart c hc
      · rcases hc with _ | ⟨_, hc⟩
        · exact hpoint
        · exact h'.isPart c hc

theorem PowerRun.isPart {power : List Char} {e : Int} (h : PowerRun power e) : ∀ c ∈ power, IsPart c := by
  cases h with
  | none => simp
  | power h hsign hdigits =>
      rintro c (_ | ⟨_, hc⟩)
      · rcases h with rfl | rfl
        · exact isPart_of_mark (by decide)
        · exact isPart_of_mark (by decide)
      · rcases List.mem_append.mp hc with hc | hc
        · exact hsign.isPart c hc
        · exact hdigits.isPart c hc

theorem PointRun.ne_nil {cs : List Char} {ds gs : List Nat} (h : PointRun cs ds gs) : cs ≠ [] := by
  cases h with
  | whole h => cases h <;> exact List.cons_ne_nil _ _
  | pointed h => exact List.append_ne_nil_of_right_ne_nil _ (List.cons_ne_nil _ _)
  | fraction h => exact List.cons_ne_nil _ _
  | around h h' => exact List.append_ne_nil_of_right_ne_nil _ (List.cons_ne_nil _ _)

/-! ### Trimming and lower case -/

/-- Trimming takes the blanks off what has none. -/
theorem trimChars_between {before cs after : List Char} (hbefore : ∀ c ∈ before, Text.isBlank c = true)
    (hafter : ∀ c ∈ after, Text.isBlank c = true) (hcs : ∀ c ∈ cs, Text.isBlank c = false) (hne : cs ≠ []) :
    Text.trimChars (before ++ cs ++ after) = cs := by
  have hdrop (blanks l rest : List Char) (hblanks : ∀ c ∈ blanks, Text.isBlank c = true)
      (hl : ∀ c ∈ l, Text.isBlank c = false) (hsome : l ≠ []) :
      Text.dropBlank (blanks ++ (l ++ rest)) = l ++ rest := by
    obtain ⟨c, more, rfl⟩ := List.exists_cons_of_ne_nil hsome
    have hc : ¬ Text.isBlank c = true := by simp [hl c List.mem_cons_self]
    rw [Text.dropBlank, List.dropWhile_append_of_pos hblanks, List.cons_append, List.dropWhile_cons_of_neg hc]
  have hback := hdrop after.reverse cs.reverse [] (fun c hc => hafter c (List.mem_reverse.mp hc))
    (fun c hc => hcs c (List.mem_reverse.mp hc)) (mt List.reverse_eq_nil_iff.mp hne)
  rw [List.append_nil] at hback
  rw [Text.trimChars, List.append_assoc, hdrop before cs after hbefore hcs hne, List.reverse_append, hback,
    List.reverse_reverse]

/-- What lower case makes of a character of a numeral. -/
def lowMark (c : Char) : Char := if c = 'E' then 'e' else c

theorem lowerFrom_of_isPart {cs : List Char} (h : ∀ c ∈ cs, IsPart c) (before : List Char) :
    Text.lowerFrom before cs = cs.map lowMark := by
  induction cs generalizing before with
  | nil => rfl
  | cons c rest ih =>
      rw [Text.lowerFrom_cons, List.map_cons, ih fun d hd => h d (List.mem_cons_of_mem c hd)]
      rcases (h c List.mem_cons_self).low with rfl | hlow
      · rfl
      · have hkept : lowMark c = c := by
          refine if_neg ?_
          rintro rfl
          exact absurd hlow.stays (by decide)
        rw [Text.lowered, if_neg hlow.not_sigma, hlow.stays, hkept]
        rfl

/-- A digit of any script in ASCII; other characters stay. -/
def asciiDigit (c : Char) : Char :=
  match Text.digitValue? c with
  | some d => Char.ofNat ('0'.toNat + d)
  | none => c

theorem narrow_eq (cs : List Char) : narrow cs = (Text.trimWhiteSpace cs).map asciiDigit := rfl

/-- What is not blank is not white space either. -/
theorem trimWhiteSpace_of_not_blank {cs : List Char} (h : ∀ c ∈ cs, Text.isBlank c = false) :
    Text.trimWhiteSpace cs = cs := by
  have hranges : ∀ p ∈ Text.whiteSpaceRanges, ∃ q ∈ Text.blankRanges, q.1 ≤ p.1 ∧ p.2 ≤ q.2 := by decide
  have hkept (l : List Char) (hl : ∀ c ∈ l, Text.isBlank c = false) : l.dropWhile Text.isWhiteSpace = l := by
    cases l with
    | nil => rfl
    | cons c rest =>
        have hwhite : ¬ Text.isWhiteSpace c = true := by
          intro hc
          obtain ⟨p, hp, hlow, hhigh⟩ := Text.Ranges.contains_iff.mp hc
          obtain ⟨q, hq, hqlow, hqhigh⟩ := hranges p hp
          have hblank : Text.isBlank c = true := Text.Ranges.contains_iff.mpr ⟨q, hq, by omega, by omega⟩
          rw [hl c List.mem_cons_self] at hblank
          cases hblank
        rw [List.dropWhile_cons_of_neg hwhite]
  rw [Text.trimWhiteSpace, hkept cs h, hkept cs.reverse fun c hc => h c (List.mem_reverse.mp hc), List.reverse_reverse]

/-! ### Without underscores

Underscores may only stand between digits, and the reader finds out by looking at the character
before and the one behind.  In a run each of them has a digit on both sides, so it goes, and
what is not a digit is never next to one.
-/

/-- What the reader makes of a character of a numeral before the underscores go. -/
def plainChar (c : Char) : Char := asciiDigit (lowMark c)

/-- The characters of a numeral are read one by one, whatever blanks are around them. -/
theorem narrow_lower_trim {before cs after : List Char} (hbefore : ∀ c ∈ before, Text.isBlank c = true)
    (hafter : ∀ c ∈ after, Text.isBlank c = true) (hcs : ∀ c ∈ cs, IsPart c) (hne : cs ≠ []) :
    narrow (Text.lower (Text.trim (String.ofList (before ++ cs ++ after)))).toList = cs.map plainChar := by
  have hblank : ∀ c ∈ cs, Text.isBlank c = false := fun c hc => (hcs c hc).not_blank
  have hlow : ∀ c ∈ cs.map lowMark, Text.isBlank c = false := by
    intro c hc
    obtain ⟨d, hd, rfl⟩ := List.mem_map.mp hc
    unfold lowMark
    split
    · decide
    · exact hblank d hd
  rw [Text.lower, Text.trim, String.toList_ofList, String.toList_ofList, String.toList_ofList,
    trimChars_between hbefore hafter hblank hne, lowerFrom_of_isPart hcs, narrow_eq, trimWhiteSpace_of_not_blank hlow,
    List.map_map]
  rfl

/-- The ASCII digits of a run. -/
def digitsOf (ds : List Nat) : List Char := ds.map Nat.digitChar

theorem plainChar_of_digit {c : Char} {d : Nat} (h : Text.digitValue? c = some d) :
    plainChar c = Nat.digitChar d ∧ isDigit (Nat.digitChar d) = true ∧ Nat.digitChar d ≠ '_' := by
  have hdigits : ∀ d < 10, Char.ofNat ('0'.toNat + d) = Nat.digitChar d ∧ isDigit (Nat.digitChar d) = true
      ∧ Nat.digitChar d ≠ '_' := by
    decide
  have hkept : lowMark c = c := by
    refine if_neg ?_
    rintro rfl
    rw [show Text.digitValue? 'E' = none by decide] at h
    cases h
  have hplain : plainChar c = Char.ofNat ('0'.toNat + d) := by
    rw [plainChar, hkept, asciiDigit, h]
  exact hplain ▸ hdigits d (mem_digitPoints h).2

/-- A character that is no underscore stays, where none is before it. -/
theorem ungroup?_cons {last c : Char} (hlast : last ≠ '_') (hc : c ≠ '_') (rest : List Char) :
    ungroup? last (c :: rest) = (ungroup? c rest).map (c :: ·) := by
  rw [ungroup?, if_neg hc, if_neg fun h => hlast h.1]

/-- A digit stays, also behind an underscore. -/
theorem ungroup?_digit {c : Char} (hdigit : isDigit c = true) (hc : c ≠ '_') (last : Char) (rest : List Char) :
    ungroup? last (c :: rest) = (ungroup? c rest).map (c :: ·) := by
  rw [ungroup?, if_neg hc, if_neg fun h => h.2 hdigit]

/-- Of a run of digits nothing but the digits is left. -/
theorem DigitRun.ungroup? {cs : List Char} {ds : List Nat} (h : DigitRun cs ds) (last : Char) (tail : List Char) :
    ∃ d, d ≠ '_' ∧ Decimal.ungroup? last (cs.map plainChar ++ tail)
      = (Decimal.ungroup? d tail).map (digitsOf ds ++ ·) := by
  induction h generalizing last with
  | last h =>
      obtain ⟨hplain, hdigit, hne⟩ := plainChar_of_digit h
      refine ⟨_, hne, ?_⟩
      rw [List.map_singleton, hplain, List.singleton_append, ungroup?_digit hdigit hne]
      rfl
  | next h more ih =>
      obtain ⟨hplain, hdigit, hne⟩ := plainChar_of_digit h
      obtain ⟨d, hd, hrest⟩ := ih (plainChar _)
      refine ⟨d, hd, ?_⟩
      rw [List.map_cons, hplain, List.cons_append, ungroup?_digit hdigit hne, ← hplain, hrest, hplain, Option.map_map]
      rfl
  | grouped h more ih =>
      obtain ⟨hplain, hdigit, hne⟩ := plainChar_of_digit h
      obtain ⟨d, hd, hrest⟩ := ih '_'
      refine ⟨d, hd, ?_⟩
      rw [List.map_cons, List.map_cons, hplain, List.cons_append, List.cons_append, ungroup?_digit hdigit hne,
        show plainChar '_' = '_' from by decide, Decimal.ungroup?, if_pos rfl, if_pos hdigit, hrest, Option.map_map]
      rfl

/-! ### Reading the runs

What is left are the digits in ASCII, perhaps with a point among them, and a power of ten.  This
is a narrow numeral, for which the reader is the one that reads back what is written.
-/

theorem all_digitsOf {cs : List Char} {ds : List Nat} (h : DigitRun cs ds) : ∀ c ∈ digitsOf ds, c.isDigit = true := by
  have hone {c : Char} {d : Nat} (h : Text.digitValue? c = some d) : (Nat.digitChar d).isDigit = true := by
    rw [← isDigit_eq]
    exact (plainChar_of_digit h).2.1
  induction h with
  | last h => simpa [digitsOf] using hone h
  | next h more ih => simpa [digitsOf, hone h] using ih
  | grouped h more ih => simpa [digitsOf, hone h] using ih

theorem isDigits_digitsOf {cs : List Char} {ds : List Nat} (h : DigitRun cs ds) : IsDigits (digitsOf ds) := by
  refine ⟨?_, all_digitsOf h⟩
  cases h <;> exact List.cons_ne_nil _ _

theorem lt_ten_of_mem {cs : List Char} {ds : List Nat} (h : DigitRun cs ds) : ∀ d ∈ ds, d < 10 := by
  induction h with
  | last h => simpa using (mem_digitPoints h).2
  | next h more ih => simpa [(mem_digitPoints h).2] using ih
  | grouped h more ih => simpa [(mem_digitPoints h).2] using ih

/-- The reader takes the digits for the number that they spell. -/
theorem digitsValue_digitsOf {ds : List Nat} (h : ∀ d ∈ ds, d < 10) : digitsValue 10 (digitsOf ds) = positional ds := by
  have hdigit : ∀ d < 10, (if isDigit (Nat.digitChar d) then (Nat.digitChar d).toNat - '0'.toNat
      else (Nat.digitChar d).toLower.toNat - 'a'.toNat + 10) = d := by
    decide
  unfold digitsValue positional digitsOf
  rw [List.foldl_map]
  refine List.foldl_ext _ _ _ ?_
  intro n d hd
  rw [hdigit d (h d hd)]

/-- A sign is split off in front of a digit or a point. -/
theorem SignRun.splitSign {sign : List Char} {negative : Bool} (h : SignRun sign negative) {c : Char}
    (hc : c.isDigit = true ∨ c = '.') (rest : List Char) :
    Decimal.splitSign (sign ++ c :: rest) = (negative, c :: rest) := by
  cases h with
  | plus => rfl
  | minus => rfl
  | none =>
      rcases hc with hdigit | rfl
      · exact splitSign_signText hdigit rest false
      · rfl

/-- The signs stay as they are. -/
theorem SignRun.ungroup? {sign : List Char} {negative : Bool} (h : SignRun sign negative) {last : Char}
    (hlast : last ≠ '_') (tail : List Char) :
    ∃ d, d ≠ '_' ∧ Decimal.ungroup? last (sign.map plainChar ++ tail) = (Decimal.ungroup? d tail).map (sign ++ ·) := by
  cases h with
  | none => exact ⟨last, hlast, by simp⟩
  | plus => exact ⟨'+', by decide, ungroup?_cons hlast (by decide) tail⟩
  | minus => exact ⟨'-', by decide, ungroup?_cons hlast (by decide) tail⟩

/-- The digits around a point come out as digits around a point, or as digits alone. -/
theorem PointRun.ungroup? {cs : List Char} {ds gs : List Nat} (h : PointRun cs ds gs) {last : Char}
    (hlast : last ≠ '_') (tail : List Char) :
    ∃ d, d ≠ '_' ∧ ∃ plain, (plain = digitsOf ds ∧ gs = [] ∨ plain = digitsOf ds ++ '.' :: digitsOf gs)
      ∧ Decimal.ungroup? last (cs.map plainChar ++ tail) = (Decimal.ungroup? d tail).map (plain ++ ·) := by
  have hpoint : plainChar '.' = '.' := by decide
  cases h with
  | whole h =>
      obtain ⟨d, hd, hrun⟩ := h.ungroup? last tail
      exact ⟨d, hd, _, Or.inl ⟨rfl, rfl⟩, hrun⟩
  | pointed h =>
      obtain ⟨d, hd, hrun⟩ := h.ungroup? last ('.' :: tail)
      refine ⟨'.', by decide, _, Or.inr rfl, ?_⟩
      rw [List.map_append, List.map_singleton, hpoint, List.append_assoc, List.singleton_append, hrun,
        ungroup?_cons hd (by decide), Option.map_map]
      simp [Function.comp_def, digitsOf]
  | fraction h =>
      obtain ⟨d, hd, hrun⟩ := h.ungroup? '.' tail
      refine ⟨d, hd, _, Or.inr rfl, ?_⟩
      rw [List.map_cons, hpoint, List.cons_append, ungroup?_cons hlast (by decide), hrun, Option.map_map]
      simp [Function.comp_def, digitsOf]
  | around h h' =>
      obtain ⟨d', hd', hrun'⟩ := h'.ungroup? '.' tail
      obtain ⟨d, hd, hrun⟩ := h.ungroup? last ('.' :: (_ ++ tail))
      refine ⟨d', hd', _, Or.inr rfl, ?_⟩
      rw [List.map_append, List.map_cons, hpoint, List.append_assoc, List.cons_append, hrun,
        ungroup?_cons hd (by decide), hrun', Option.map_map, Option.map_map]
      simp [Function.comp_def, digitsOf]

/-- A power of ten comes out as one that is read as its exponent, and does not go on with digits or a point. -/
theorem PowerRun.ungroup? {power : List Char} {e : Int} (h : PowerRun power e) {last : Char} (hlast : last ≠ '_') :
    ∃ tail, Decimal.ungroup? last (power.map plainChar) = some tail ∧ readExponent? tail = some e ∧ EndsDigits tail
      ∧ tail.head? ≠ some '.' := by
  cases h with
  | none => exact ⟨[], by rw [List.map_nil, Decimal.ungroup?, if_neg hlast], rfl, endsDigits_nil, by simp⟩
  | @power mark negative sign cs ds h hsign hdigits =>
      have hmark : plainChar mark = 'e' := by rcases h with rfl | rfl <;> decide
      obtain ⟨d, hd, hrun⟩ := hsign.ungroup? (show 'e' ≠ '_' by decide) (cs.map plainChar)
      obtain ⟨d', hd', hrun'⟩ := hdigits.ungroup? d []
      have hend : Decimal.ungroup? d' [] = some [] := by rw [Decimal.ungroup?, if_neg hd']
      rw [List.append_nil] at hrun'
      refine ⟨'e' :: (sign ++ digitsOf ds), ?_, ?_, endsDigits_cons rfl _, by simp⟩
      · rw [List.map_cons, List.map_append, hmark, ungroup?_cons hlast (by decide), hrun, hrun', hend]
        simp
      · obtain ⟨hne, hall⟩ := isDigits_digitsOf hdigits
        obtain ⟨c, rest, hcs⟩ := List.exists_cons_of_ne_nil hne
        have hsplit := hsign.splitSign (Or.inl (hall c (hcs ▸ List.mem_cons_self))) rest
        have hvalue := digitsValue_digitsOf (lt_ten_of_mem hdigits)
        have hdigit : (digitsOf ds).all isDigit = true := (isDigits_digitsOf hdigits).all_isDigit
        rw [hcs] at hdigit hvalue ⊢
        simp [readExponent?, hsplit, hdigit, hvalue]

theorem PointRun.lt_ten {cs : List Char} {ds gs : List Nat} (h : PointRun cs ds gs) : ∀ d ∈ ds ++ gs, d < 10 := by
  intro d hd
  cases h with
  | whole h => exact lt_ten_of_mem h d (by simpa using hd)
  | pointed h => exact lt_ten_of_mem h d (by simpa using hd)
  | fraction h => exact lt_ten_of_mem h d (by simpa using hd)
  | around h h' =>
      rcases List.mem_append.mp hd with hd | hd
      · exact lt_ten_of_mem h d hd
      · exact lt_ten_of_mem h' d hd

/-- The digits on the two sides of the point, one side of which may have none. -/
theorem PointRun.digits {cs : List Char} {ds gs : List Nat} (h : PointRun cs ds gs) :
    (∀ c ∈ digitsOf ds, c.isDigit = true) ∧ (∀ c ∈ digitsOf gs, c.isDigit = true)
      ∧ (gs = [] → IsDigits (digitsOf ds)) ∧ digitsOf ds ++ digitsOf gs ≠ [] := by
  have hnone : ∀ c ∈ digitsOf [], c.isDigit = true := fun c hc => absurd hc List.not_mem_nil
  cases h with
  | whole h =>
      have hds := isDigits_digitsOf h
      exact ⟨hds.all, hnone, fun _ => hds, List.append_ne_nil_of_left_ne_nil hds.ne_nil _⟩
  | pointed h =>
      have hds := isDigits_digitsOf h
      exact ⟨hds.all, hnone, fun _ => hds, List.append_ne_nil_of_left_ne_nil hds.ne_nil _⟩
  | fraction h =>
      have hgs := isDigits_digitsOf h
      refine ⟨hnone, hgs.all, fun hnil => absurd ?_ hgs.ne_nil, List.append_ne_nil_of_right_ne_nil _ hgs.ne_nil⟩
      rw [hnil]
      rfl
  | around h h' =>
      have hds := isDigits_digitsOf h
      exact ⟨hds.all, (isDigits_digitsOf h').all, fun _ => hds, List.append_ne_nil_of_left_ne_nil hds.ne_nil _⟩

/-- The digits around a point in front of a power of ten are read as a magnitude. -/
theorem PointRun.readMagnitude? {cs : List Char} {ds gs : List Nat} (h : PointRun cs ds gs) {plain tail : List Char}
    (hplain : plain = digitsOf ds ∧ gs = [] ∨ plain = digitsOf ds ++ '.' :: digitsOf gs) {e : Int}
    (he : readExponent? tail = some e) (htail : EndsDigits tail) (hpoint : tail.head? ≠ some '.') :
    Decimal.readMagnitude? (plain ++ tail) = some ⟨positional (ds ++ gs), e - gs.length⟩
      ∧ ∃ c rest, plain ++ tail = c :: rest ∧ (c.isDigit = true ∨ c = '.') := by
  obtain ⟨hwhole, hfraction, hds, hne⟩ := h.digits
  have hvalue := digitsValue_digitsOf h.lt_ten
  have hcount : (digitsOf gs).length = gs.length := List.length_map _
  have hboth : digitsOf ds ++ digitsOf gs = digitsOf (ds ++ gs) := List.map_append.symm
  rcases hplain with ⟨rfl, rfl⟩ | rfl
  · obtain ⟨c, rest, hhead, hc⟩ := (hds rfl).head tail
    refine ⟨?_, c, rest, hhead, Or.inl hc⟩
    rw [List.append_nil] at hvalue
    rw [readMagnitude?_whole (hds rfl) htail hpoint, he, hvalue, List.append_nil]
    simp
  · refine ⟨?_, ?_⟩
    · rw [List.append_assoc, List.cons_append, readMagnitude?_around hwhole hfraction hne htail, he, hcount, hboth,
        hvalue]
      rfl
    · cases hcs : digitsOf ds with
      | nil => exact ⟨'.', _, rfl, Or.inr rfl⟩
      | cons c rest => exact ⟨c, _, rfl, Or.inl (hwhole c (hcs ▸ List.mem_cons_self))⟩

/-- **A loose numeral is read as the number that it spells.** -/
theorem readLoose?_of_isNumeral {s : String} {q : ℚ} (h : IsNumeral s q) :
    ∃ negative m, Numeral.readLoose? (Text.lower (Text.trim s)) = some (.finite negative m)
      ∧ signed negative m.value = q := by
  obtain @⟨before, after, sign, cs, power, negative, ds, gs, e, hbefore, hafter, hsign, hpoint, hpower⟩ := h
  have hpart : ∀ c ∈ sign ++ (cs ++ power), IsPart c := by
    intro c hc
    rcases List.mem_append.mp hc with hc | hc
    · exact hsign.isPart c hc
    · rcases List.mem_append.mp hc with hc | hc
      · exact hpoint.isPart c hc
      · exact hpower.isPart c hc
  have hsome : sign ++ (cs ++ power) ≠ [] :=
    List.append_ne_nil_of_right_ne_nil _ (List.append_ne_nil_of_left_ne_nil hpoint.ne_nil _)
  have hnarrow : narrow (Text.lower (Text.trim (String.ofList (before ++ (sign ++ (cs ++ power)) ++ after)))).toList
      = sign.map plainChar ++ (cs.map plainChar ++ power.map plainChar) := by
    rw [narrow_lower_trim hbefore hafter hpart hsome, List.map_append, List.map_append]
  obtain ⟨d, hd, hrun⟩ := hsign.ungroup? (show ' ' ≠ '_' by decide) (cs.map plainChar ++ power.map plainChar)
  obtain ⟨d', hd', plain, hplain, hrun'⟩ := hpoint.ungroup? hd (power.map plainChar)
  obtain ⟨tail, htail, he, hends, hhead⟩ := hpower.ungroup? hd'
  obtain ⟨hmagnitude, c, rest, hfirst, hc⟩ := hpoint.readMagnitude? hplain he hends hhead
  refine ⟨negative, ⟨positional (ds ++ gs), e - gs.length⟩, ?_, rfl⟩
  have hungrouped : Decimal.ungroup? ' ' (sign.map plainChar ++ (cs.map plainChar ++ power.map plainChar))
      = some (sign ++ (plain ++ tail)) := by
    rw [hrun, hrun', htail]
    rfl
  rw [Numeral.readLoose?, hnarrow, hungrouped, Option.bind_some]
  have hsplit := hsign.splitSign hc rest
  rw [← hfirst] at hsplit
  rw [read?_of_splitSign hsplit ⟨c, rest, hfirst, hc⟩, hmagnitude]
  rfl

end PartProgram.Decimal
