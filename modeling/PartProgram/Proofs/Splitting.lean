/-
The lines of a listing.

A listing is its buffer joined at line breaks, so splitting it there gives every entry as
the lines it has, and the buffer back exactly when no entry has more than one.  Numbers and
literals are one line.  What goes into a line as it stands is a text: the name of the
program, a raw line, and under the permissive policy a text in the place of a number.  Raw
lines with a line break cannot be made; the other two are not looked at.
-/
import PartProgram.Proofs.Answer
import PartProgram.Proofs.OneLine

namespace PartProgram

open PartProgram.Numbering

/-- The lines of a text: what stands between its line breaks. -/
def textLines (s : String) : List String := (s.toList.splitOn '\n').map String.ofList

/-- No part of a split text holds what it was split at. -/
theorem not_mem_of_mem_splitOn {sep : Char} {cs part : List Char} (h : part ∈ cs.splitOn sep) : sep ∉ part := by
  induction cs generalizing part with
  | nil =>
      rw [List.mem_singleton.mp h]
      exact List.not_mem_nil
  | cons c rest ih =>
      rw [List.splitOn_cons_eq_if_modifyHead] at h
      by_cases hc : c = sep
      · rw [if_pos (beq_iff_eq.mpr hc)] at h
        rcases List.mem_cons.mp h with rfl | hrest
        · exact List.not_mem_nil
        · exact ih hrest
      · rw [if_neg (fun hb => hc (beq_iff_eq.mp hb))] at h
        obtain ⟨first, more, hsplit⟩ := List.exists_cons_of_ne_nil (List.splitOn_ne_nil sep rest)
        rw [hsplit] at h ih
        rcases List.mem_cons.mp h with rfl | hmore
        · exact List.not_mem_cons_of_ne_of_not_mem (Ne.symm hc) (ih List.mem_cons_self)
        · exact ih (List.mem_cons_of_mem first hmore)

theorem textLines_of_isOneLine {s : String} (h : IsOneLine s) : textLines s = [s] := by
  rw [textLines, List.splitOn_eq_singleton h, List.map_singleton, String.ofList_toList]

theorem textLines_append_newline (s t : String) : textLines (s ++ "\n" ++ t) = textLines s ++ textLines t := by
  have hchars : (s ++ "\n" ++ t).toList = s.toList ++ '\n' :: t.toList := by
    rw [String.toList_append, String.toList_append, List.append_assoc]
    rfl
  rw [textLines, hchars, List.splitOn_append_cons_self, List.map_append]
  rfl

/-- Every entry of a listing shows as the lines it has. -/
theorem textLines_intercalate {ls : List String} (hne : ls ≠ []) :
    textLines ("\n".intercalate ls) = ls.flatMap textLines := by
  induction ls with
  | nil => exact absurd rfl hne
  | cons first rest ih =>
      cases rest with
      | nil => rw [String.intercalate_singleton, List.flatMap_singleton]
      | cons second more =>
          rw [String.intercalate_cons_cons, textLines_append_newline, ih (List.cons_ne_nil second more),
            ← List.flatMap_cons]

/-- Entries that are joined are read back exactly when each of them is one line. -/
theorem textLines_intercalate_eq_self {ls : List String} (hne : ls ≠ []) :
    textLines ("\n".intercalate ls) = ls ↔ ∀ l ∈ ls, IsOneLine l := by
  constructor
  · intro h l hl
    rw [← h] at hl
    obtain ⟨cs, hcs, rfl⟩ := List.mem_map.mp hl
    exact isOneLine_ofList.mpr (not_mem_of_mem_splitOn hcs)
  · intro h
    rw [textLines_intercalate hne, List.flatMap_congr fun l hl => textLines_of_isOneLine (h l hl),
      List.flatMap_singleton']

/-! ### Lines and their entries -/

theorem isOneLine_lineNumberWord (n : Nat) : IsOneLine (lineNumberWord n) := by
  rw [IsOneLine, toList_lineNumberWord]
  exact List.not_mem_cons_of_ne_of_not_mem (by decide) (Decimal.newline_not_mem_paddedDigits 3 n)

theorem Numbering.isOneLine_entry (n : Nat) (line : String) : IsOneLine (entry n line) ↔ IsOneLine line := by
  unfold entry
  split
  · rw [isOneLine_append, isOneLine_append]
    exact and_iff_right ⟨isOneLine_lineNumberWord n, by decide⟩
  · exact Iff.rfl

/-- The number of a line does not change how many lines it shows as. -/
theorem Numbering.isOneLine_entries (n : Nat) (lines : List String) :
    (∀ e ∈ entries n lines, IsOneLine e) ↔ ∀ line ∈ lines, IsOneLine line := by
  induction lines generalizing n with
  | nil => rfl
  | cons line rest ih => rw [entries, List.forall_mem_cons, List.forall_mem_cons, isOneLine_entry, ih]

theorem PreparatoryCode.isOneLine_toWord (code : PreparatoryCode) : IsOneLine code.toWord := by
  cases code <;> decide

theorem MiscellaneousCode.isOneLine_toWord (code : MiscellaneousCode) : IsOneLine code.toWord := by
  cases code <;> decide

/-! ### Motions -/

namespace Motion

/-- The texts among the numbers of a motion. -/
def texts (m : Motion) : List String := m.numbers.filterMap fun number => number.2.text?

/-- Finite numbers are no texts. -/
theorem texts_of_isFinite {m : Motion} (h : m.IsFinite) : m.texts = [] := by
  refine List.filterMap_eq_nil_iff.mpr ?_
  intro number hnumber
  have hfault := h number hnumber
  cases hv : number.2 with
  | text s => rw [hv] at hfault; cases hfault
  | _ => rfl

/-- The line of a motion is one line unless a number of it is a text of several. -/
theorem isOneLine_text (factor : Nat) (m : Motion) : IsOneLine (m.text factor) ↔ ∀ t ∈ m.texts, IsOneLine t := by
  have hword : ∀ number ∈ m.numbers, IsOneLine (numberWord number.1 factor number.2) ↔
      ∀ t ∈ number.2.text?, IsOneLine t := by
    intro number hnumber
    have hletters : ∀ letter ∈ ["X", "Y", "Z", "F"], IsOneLine letter := by decide
    rw [numberWord, isOneLine_append, Value.isOneLine_numberText]
    exact and_iff_right (hletters _ (letter_mem hnumber))
  have hwords : (∀ w ∈ m.numberWords factor, IsOneLine w) ↔
      ∀ number ∈ m.numbers, ∀ t ∈ number.2.text?, IsOneLine t := by
    rw [numberWords, List.forall_mem_map]
    exact forall₂_congr hword
  rw [← line_eq_text, line_eq, isOneLine_intercalate (by decide), List.forall_mem_cons,
    and_iff_right m.code.isOneLine_toWord, hwords, texts, List.forall_mem_filterMap]
  rfl

end Motion

/-! ### The texts of a listing

Only texts that are taken as they stand can bring line breaks into a listing.  They are gathered
here from the lines one after another, and it does not matter for this which of the lines are
numbered.
-/

namespace Config

variable {c : Config} {name : String} {ops : List Operation}

/-- The texts that stand in the place of a number in a motion of a listing. -/
def numberTexts (c : Config) (ops : List Operation) : List String := (c.motions ops).flatMap Motion.texts

theorem forall_mem_numberTexts {P : String → Prop} : (∀ t ∈ c.numberTexts ops, P t) ↔
    (∀ t ∈ c.raise.texts, P t) ∧ (∀ t ∈ c.approach.texts, P t)
      ∧ ∀ op ∈ ops, ∀ m ∈ op.motion? c, ∀ t ∈ m.texts, P t := by
  rw [numberTexts, List.forall_mem_flatMap]
  constructor
  · intro h
    refine ⟨h c.raise (mem_motions.mpr (Or.inl rfl)), h c.approach (mem_motions.mpr (Or.inr (Or.inl rfl))), ?_⟩
    intro op hop m hm
    exact h m (mem_motions.mpr (Or.inr (Or.inr ⟨op, hop, hm⟩)))
  · rintro ⟨hraise, happroach, hops⟩ m hm
    rcases mem_motions.mp hm with rfl | rfl | ⟨op, hop, hmotion⟩
    · exact hraise
    · exact happroach
    · exact hops op hop m hmotion

theorem isOneLine_motionText (m : Motion) : IsOneLine (c.motionText m) ↔ ∀ t ∈ m.texts, IsOneLine t :=
  Motion.isOneLine_text _ m

theorem isOneLine_headLines : (∀ line ∈ c.headLines name, IsOneLine line) ↔
    IsOneLine name ∧ (∀ t ∈ c.raise.texts, IsOneLine t) ∧ ∀ t ∈ c.approach.texts, IsOneLine t := by
  have hmarker : IsOneLine openMarker := by decide
  have hletter : IsOneLine nameLetter := by decide
  simp [headLines_eq, isOneLine_motionText, PreparatoryCode.isOneLine_toWord, hmarker, hletter]

theorem isOneLine_endLines (hraise : ∀ t ∈ c.raise.texts, IsOneLine t) (forced : Bool) :
    ∀ line ∈ c.endLines forced, IsOneLine line := by
  cases forced with
  | true => exact List.forall_mem_singleton.mpr (by decide)
  | false =>
      have hup : IsOneLine (c.motionText c.raise) := (isOneLine_motionText _).mpr hraise
      simp [endLines, hup]
      decide

/-- The lines of an operation are one line each unless it is given a text of several. -/
theorem isOneLine_linesOf (hraise : ∀ t ∈ c.raise.texts, IsOneLine t) (op : Operation) :
    (∀ line ∈ c.linesOf op, IsOneLine line) ↔
      (∀ m ∈ op.motion? c, ∀ t ∈ m.texts, IsOneLine t) ∧ ∀ t ∈ op.rawText?, IsOneLine t := by
  have hputs := c.puts_linesOf op
  revert hputs
  generalize c.linesOf op = lines
  intro hputs
  cases hputs with
  | motion m hm hraw => simp [hm, hraw, isOneLine_motionText]
  | preparatory code hm hraw => simp [hm, hraw, code.isOneLine_toWord]
  | miscellaneous code hm hraw => simp [hm, hraw, code.isOneLine_toWord]
  | ended forced hm hraw => simpa [hm, hraw] using isOneLine_endLines hraise forced
  | text t hm hraw => simp [hm, hraw]
  | nothing hm hraw => simp [hm, hraw]

theorem isOneLine_bodyLines (hraise : ∀ t ∈ c.raise.texts, IsOneLine t) :
    (∀ line ∈ c.bodyLines ops, IsOneLine line) ↔
      (∀ op ∈ ops, ∀ m ∈ op.motion? c, ∀ t ∈ m.texts, IsOneLine t)
        ∧ ∀ t ∈ ops.filterMap Operation.rawText?, IsOneLine t := by
  have hend : ∀ line ∈ if ops.any Operation.isTerminate then [] else c.endLines false, IsOneLine line := by
    split
    · exact fun _ hline => absurd hline List.not_mem_nil
    · exact isOneLine_endLines hraise false
  have hops : (∀ op ∈ ops, ∀ line ∈ c.linesOf op, IsOneLine line) ↔
      ∀ op ∈ ops, (∀ m ∈ op.motion? c, ∀ t ∈ m.texts, IsOneLine t) ∧ ∀ t ∈ op.rawText?, IsOneLine t :=
    forall₂_congr fun op _ => isOneLine_linesOf hraise op
  rw [bodyLines, List.forall_mem_append, and_iff_left hend, List.forall_mem_flatMap, hops, forall₂_and,
    List.forall_mem_filterMap]
  rfl

/-- The lines of a listing are one line each unless a text of several was given for one. -/
theorem isOneLine_writtenLines : (∀ line ∈ c.writtenLines name ops, IsOneLine line) ↔
    IsOneLine name ∧ (∀ t ∈ c.numberTexts ops, IsOneLine t) ∧ ∀ t ∈ ops.filterMap Operation.rawText?, IsOneLine t := by
  have hmarker : ∀ line ∈ [openMarker], IsOneLine line := by decide
  rw [writtenLines, List.forall_mem_append, and_iff_left hmarker, List.forall_mem_append, isOneLine_headLines,
    forall_mem_numberTexts]
  constructor
  · rintro ⟨⟨hname, hraise, happroach⟩, hbody⟩
    obtain ⟨hops, hraw⟩ := (isOneLine_bodyLines hraise).mp hbody
    exact ⟨hname, ⟨hraise, happroach, hops⟩, hraw⟩
  · rintro ⟨hname, ⟨hraise, happroach, hops⟩, hraw⟩
    exact ⟨⟨hname, hraise, happroach⟩, (isOneLine_bodyLines hraise).mpr ⟨hops, hraw⟩⟩

/-- A strict configuration lets no text through as a number. -/
theorem numberTexts_of_verdict [DigitLimit] (hc : c.strict = true) (h : c.verdict ops = .ok ()) : c.numberTexts ops = [] := by
  refine List.flatMap_eq_nil_iff.mpr ?_
  intro m hm
  exact Motion.texts_of_isFinite (isFinite_of_verdict hc h hm)

end Config

/-- A raw line that can be made is one line. -/
theorem Operation.isOneLine_of_ofLine {text : String} {op : Operation} (h : ofLine text = .ok op) :
    IsOneLine text := by
  unfold ofLine at h
  by_cases hblank : (Text.trim text).isEmpty = true
  · rw [if_pos hblank] at h
    cases h
  · by_cases hbreak : text.toList.contains '\n' = true
    · rw [if_neg hblank, if_pos hbreak] at h
      cases h
    · exact fun hmem => hbreak (List.contains_iff_mem.mpr hmem)

section

variable [DigitLimit]

/-! ### Answers -/

namespace Generator

variable {g : Generator} {ops : List Operation} {listing : String}

/-- **Splitting a listing.**  Every entry of the buffer behind an answer shows as the lines it
has.  The lines are the entries themselves exactly when none of three kinds of text holds a
line break: the name of the program, the texts in the place of numbers, and the raw lines.
Under the strict policy there are none of the second kind, and of the third kind those that
can be made are one line. -/
theorem textLines_of_answer (h : (g.generate ops).1 = .ok listing) :
    ∃ p q, g.openNext.1 = .ok p
      ∧ (do Writing.carryOutAll ops; Writing.eval : Writing String).run p = .ok listing q
      ∧ textLines listing = q.lines.toList.flatMap textLines
      ∧ (textLines listing = q.lines.toList ↔ IsOneLine g.nextName
          ∧ (∀ t ∈ g.config.numberTexts ops, IsOneLine t) ∧ ∀ t ∈ ops.filterMap Operation.rawText?, IsOneLine t)
      ∧ (g.config.strict = true → g.config.numberTexts ops = [])
      ∧ ∀ t ∈ ops.filterMap Operation.rawText?, (∃ op, Operation.ofLine t = .ok op) → IsOneLine t := by
  obtain ⟨hverdict, p, q, hp, hq, hlines, hlisting⟩ := written_of_answer h
  have hne : q.lines.toList ≠ [] := by
    rw [hlines, Config.writtenLines, entries_append]
    simp [entries]
  refine ⟨p, q, hp, hq, ?_, ?_, ?_, ?_⟩
  · rw [hlisting, textLines_intercalate hne]
  · rw [hlisting, textLines_intercalate_eq_self hne, hlines, isOneLine_entries, Config.isOneLine_writtenLines]
  · intro hstrict
    exact Config.numberTexts_of_verdict hstrict hverdict
  · rintro t - ⟨op, hop⟩
    exact Operation.isOneLine_of_ofLine hop

end Generator

end

/-- A strict program whose name takes two lines. -/
theorem Generator.textLines_of_answer_of_broken_name :
    let g : Generator := ⟨{ Config.standard with name := some "A\nB", strict := true }, none⟩
    let listing := "%\nOA\nB\nN001 G21\nN002 G90\nN003 G00 Z100 F500\nN004 G00 X0 Y0 Z100 F500\n"
      ++ "N005 M05\nN006 M09\nN007 G00 Z100 F500\nN008 M30\n%"
    (g.generate []).1 = .ok listing
    ∧ ∃ p q, g.openNext.1 = .ok p
      ∧ (do Writing.carryOutAll []; Writing.eval : Writing String).run p = .ok listing q
      ∧ textLines listing ≠ q.lines.toList := by
  intro g listing
  have hanswer : (g.generate []).1 = .ok listing := by
    have hverdict : g.verdict [] = .ok () := verdict_of_isFinite rfl (by decide +kernel)
    have hends : Operation.EndsOnce [] := Operation.endsOnce_of_dropLast fun _ hop => absurd hop List.not_mem_nil
    rw [generate_of_endsOnce g hends, hverdict]
    exact congrArg Except.ok (by decide)
  obtain ⟨p, q, hp, hq, -, hsplit, -⟩ := textLines_of_answer hanswer
  have hname : ¬ IsOneLine g.nextName := by decide
  refine ⟨hanswer, p, q, hp, hq, ?_⟩
  intro heq
  exact hname (hsplit.mp heq).1

end PartProgram
