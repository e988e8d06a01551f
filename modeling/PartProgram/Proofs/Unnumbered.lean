/-
The entries without a number.

Whether an entry is numbered is decided by the first character of its line and not by what
the line is for.  The marker and the line with the name are exempt by their first
characters, and no directive begins with either of them: it begins with the letter of its
code.  A raw line begins with whatever its text begins with.  So among the entries between
the name and the closing marker, those without a number are the raw lines with one of the
two characters in front, in order; a numbered program has numbers on all of them exactly
when there is no such raw line.
-/
import PartProgram.Proofs.Answer

namespace PartProgram

/-! ### Lines by their first character -/

theorem isUnnumbered_of_toList {line : String} {first : Char} {rest : List Char} (h : line.toList = first :: rest) :
    isUnnumbered line = (first == '%' || first == 'O') := by
  rw [isUnnumbered, h]

theorem PreparatoryCode.isUnnumbered_append (code : PreparatoryCode) (rest : String) :
    isUnnumbered (code.toWord ++ rest) = false := by
  have hchars : (code.toWord ++ rest).toList = 'G' :: (code.digits.toList ++ rest.toList) := by
    rw [toWord, String.toList_append, String.toList_append]
    rfl
  rw [isUnnumbered_of_toList hchars]
  rfl

theorem PreparatoryCode.isUnnumbered_toWord (code : PreparatoryCode) : isUnnumbered code.toWord = false := by
  have h := code.isUnnumbered_append ""
  rwa [String.append_empty] at h

theorem MiscellaneousCode.isUnnumbered_toWord (code : MiscellaneousCode) : isUnnumbered code.toWord = false := by
  cases code <;> rfl

theorem Motion.isUnnumbered_text (factor : Nat) (m : Motion) : isUnnumbered (m.text factor) = false := by
  simp only [text, String.append_assoc]
  exact m.code.isUnnumbered_append _

theorem isUnnumbered_title (name : String) : isUnnumbered (nameLetter ++ name) = true := by
  have hchars : (nameLetter ++ name).toList = 'O' :: name.toList := by
    rw [String.toList_append]
    rfl
  rw [isUnnumbered_of_toList hchars]
  rfl

/-- An entry that begins with a number word and a space. -/
def CarriesNumber (e : String) : Prop := ∃ (n : Nat) (line : String), e = lineNumberWord n ++ " " ++ line

namespace Numbering

theorem isUnnumbered_entry (n : Nat) (line : String) : isUnnumbered (entry n line) = isUnnumbered line := by
  have h := isNumbered_entry (n := n) line
  rw [isNumbered, isNumbered] at h
  exact Bool.not_inj h

/-- A line that is exempt is its own entry. -/
theorem entry_of_isUnnumbered {line : String} (h : isUnnumbered line = true) (n : Nat) : entry n line = line :=
  if_neg fun hc => by
    rw [isNumbered, h] at hc
    exact Bool.false_ne_true hc.2

/-- A line that is exempt leaves the number to the next one. -/
theorem numberAfter_of_isUnnumbered {line : String} (h : isUnnumbered line = true) (n : Nat) :
    numberAfter n [line] = n := by
  have hcount : [line].countP isNumbered = 0 := List.countP_eq_zero.mpr (by simp [isNumbered, h])
  rw [numberAfter, hcount]
  split
  · rename_i hn
    exact hn.symm
  · rfl

/-- The marker and the title stand as they are in front of the entries. -/
theorem entries_title (n : Nat) (name : String) (lines : List String) :
    entries n (openMarker :: (nameLetter ++ name) :: lines)
      = openMarker :: (nameLetter ++ name) :: entries n lines := by
  have hmarker : isUnnumbered openMarker = true := rfl
  have htitle := isUnnumbered_title name
  rw [entries, entries, entry_of_isUnnumbered hmarker, numberAfter_of_isUnnumbered hmarker,
    entry_of_isUnnumbered htitle, numberAfter_of_isUnnumbered htitle]

/-- The entries that go without a number are the lines that are exempt. -/
theorem filter_entries (n : Nat) (lines : List String) :
    (entries n lines).filter isUnnumbered = lines.filter isUnnumbered := by
  induction lines generalizing n with
  | nil => rfl
  | cons line rest ih =>
      rw [entries]
      by_cases h : isUnnumbered line = true
      · rw [entry_of_isUnnumbered h, List.filter_cons_of_pos h, List.filter_cons_of_pos h, ih]
      · have he : ¬ isUnnumbered (entry n line) = true := by rwa [isUnnumbered_entry]
        rw [List.filter_cons_of_neg he, List.filter_cons_of_neg h, ih]

/-- Among numbered lines an entry carries a number unless its line is exempt. -/
theorem carriesNumber_iff {n : Nat} (hn : n ≠ 0) {lines : List String} {e : String} (he : e ∈ entries n lines) :
    CarriesNumber e ↔ isUnnumbered e = false := by
  constructor
  · rintro ⟨k, line, rfl⟩
    have hchars : (lineNumberWord k ++ " " ++ line).toList = 'N' :: (wordDigits k ++ (" " ++ line).toList) := by
      rw [String.append_assoc, String.toList_append, toList_lineNumberWord]
      rfl
    rw [isUnnumbered_of_toList hchars]
    rfl
  · intro h
    induction lines generalizing n with
    | nil => exact absurd he List.not_mem_nil
    | cons line rest ih =>
        rcases List.mem_cons.mp he with rfl | hrest
        · rw [isUnnumbered_entry] at h
          exact ⟨n, line, if_pos ⟨hn, by rw [isNumbered, h]; rfl⟩⟩
        · exact ih (numberAfter_ne_zero hn [line]) hrest

end Numbering

/-! ### The lines of a listing

The lines of a program are those of directives, which all begin with the letter of a code, and
raw lines.  So filtering for lines that are exempt leaves raw lines only, part by part.
-/

open PartProgram.Numbering

namespace Config

variable {c : Config} {name : String} {ops : List Operation}

theorem isUnnumbered_endLines (forced : Bool) : ∀ line ∈ c.endLines forced, isUnnumbered line = false := by
  cases forced with
  | true => exact List.forall_mem_singleton.mpr rfl
  | false =>
      have hraise : isUnnumbered (c.motionText c.raise) = false := Motion.isUnnumbered_text _ _
      simp [endLines, hraise]
      decide

/-- Only a raw line can go without a number. -/
theorem filter_linesOf (op : Operation) :
    (c.linesOf op).filter isUnnumbered = op.rawText?.toList.filter isUnnumbered := by
  have hnone {lines : List String} (h : ∀ line ∈ lines, isUnnumbered line = false) : lines.filter isUnnumbered = [] :=
    List.filter_eq_nil_iff.mpr fun line hline => by simp [h line hline]
  have hputs := c.puts_linesOf op
  revert hputs
  generalize c.linesOf op = lines
  intro hputs
  cases hputs with
  | motion m _ hraw =>
      rw [hraw]
      exact hnone (List.forall_mem_singleton.mpr (m.isUnnumbered_text _))
  | preparatory code _ hraw =>
      rw [hraw]
      exact hnone (List.forall_mem_singleton.mpr code.isUnnumbered_toWord)
  | miscellaneous code _ hraw =>
      rw [hraw]
      exact hnone (List.forall_mem_singleton.mpr code.isUnnumbered_toWord)
  | ended forced _ hraw =>
      rw [hraw]
      exact hnone (isUnnumbered_endLines forced)
  | text t _ hraw => rw [hraw, Option.toList_some]
  | nothing _ hraw => rw [hraw, Option.toList_none]

theorem filter_bodyLines : (c.bodyLines ops).filter isUnnumbered
    = (ops.filterMap Operation.rawText?).filter isUnnumbered := by
  have hend : (if ops.any Operation.isTerminate then [] else c.endLines false).filter isUnnumbered = [] := by
    split
    · rfl
    · exact List.filter_eq_nil_iff.mpr fun line hline => by simp [isUnnumbered_endLines false line hline]
  rw [bodyLines, List.filter_append, hend, List.append_nil, List.filter_flatMap, List.filterMap_eq_flatMap_toList,
    List.filter_flatMap]
  exact List.flatMap_congr fun op _ => filter_linesOf op

/-- The raw lines are in the listing in order. -/
theorem rawText_sublist_bodyLines : (ops.filterMap Operation.rawText?).Sublist (c.bodyLines ops) := by
  have hop (op : Operation) : op.rawText?.toList.Sublist (c.linesOf op) := by
    cases op with
    | rawLine text => exact List.Sublist.refl _
    | _ => exact List.nil_sublist _
  have hall : (ops.filterMap Operation.rawText?).Sublist (ops.flatMap c.linesOf) := by
    rw [List.filterMap_eq_flatMap_toList]
    induction ops with
    | nil => exact List.nil_sublist _
    | cons op rest ih =>
        rw [List.flatMap_cons, List.flatMap_cons]
        exact (hop op).append ih
  exact hall.trans (List.sublist_append_left _ _)

/-- The lines between the name and the closing marker. -/
def innerLines (c : Config) (ops : List Operation) : List String :=
  [(LengthUnit.code c.unit).toWord, c.mode.code.toWord, c.motionText c.raise, c.motionText c.approach]
    ++ c.bodyLines ops

theorem writtenLines_eq :
    c.writtenLines name ops = openMarker :: (nameLetter ++ name) :: c.innerLines ops ++ [openMarker] := by
  rw [writtenLines, headLines_eq]
  rfl

theorem filter_innerLines : (c.innerLines ops).filter isUnnumbered
    = (ops.filterMap Operation.rawText?).filter isUnnumbered := by
  have hhead : [(LengthUnit.code c.unit).toWord, c.mode.code.toWord, c.motionText c.raise,
      c.motionText c.approach].filter isUnnumbered = [] := by
    simp [PreparatoryCode.isUnnumbered_toWord, motionText, Motion.isUnnumbered_text]
  rw [innerLines, List.filter_append, hhead, filter_bodyLines]
  rfl

/-- The marker and the name stand in front of the numbered lines, and the marker behind them.
-/
theorem entries_writtenLines (n : Nat) : entries n (c.writtenLines name ops)
    = openMarker :: (nameLetter ++ name) :: entries n (c.innerLines ops) ++ [openMarker] := by
  rw [writtenLines_eq, entries_append, entries_title, Call.entries_marker]

end Config

section

variable [DigitLimit]

/-! ### Answers -/

namespace Generator

variable {g : Generator} {ops : List Operation} {listing : String}

/-- **The entries without a number.**  Where lines are numbered, the buffer behind an answer is
the marker, the name, the entries of the lines between, and the marker.  Of those between,
the ones that carry no number are the raw lines with the first character of the marker or
of the name, as they are and in order; so all of them carry numbers exactly when there is no
such raw line, and there are two markers in the buffer and one more for each raw line that
is a marker. -/
theorem unnumbered_entries (hn : g.config.lineNumbering = true) (h : (g.generate ops).1 = .ok listing) :
    ∃ p q inner, g.openNext.1 = .ok p
      ∧ (do Writing.carryOutAll ops; Writing.eval : Writing String).run p = .ok listing q
      ∧ q.lines.toList = openMarker :: (nameLetter ++ g.nextName) :: entries 1 inner ++ [openMarker]
      ∧ (ops.filterMap Operation.rawText?).Sublist inner
      ∧ (∀ e ∈ entries 1 inner, CarriesNumber e ↔ isUnnumbered e = false)
      ∧ (entries 1 inner).filter isUnnumbered = (ops.filterMap Operation.rawText?).filter isUnnumbered
      ∧ ((∀ e ∈ entries 1 inner, CarriesNumber e) ↔
          ∀ text ∈ ops.filterMap Operation.rawText?, isUnnumbered text = false)
      ∧ q.lines.toList.count openMarker = 2 + (ops.filterMap Operation.rawText?).count openMarker := by
  obtain ⟨-, p, q, hp, hq, hlines, -⟩ := written_of_answer h
  rw [hn, if_pos rfl, Config.entries_writtenLines] at hlines
  have hcarries (e : String) (he : e ∈ entries 1 (g.config.innerLines ops)) :
      CarriesNumber e ↔ isUnnumbered e = false := carriesNumber_iff Nat.one_ne_zero he
  have hfilter : (entries 1 (g.config.innerLines ops)).filter isUnnumbered
      = (ops.filterMap Operation.rawText?).filter isUnnumbered := by
    rw [filter_entries, Config.filter_innerLines]
  have hraw : (ops.filterMap Operation.rawText?).Sublist (g.config.innerLines ops) :=
    Config.rawText_sublist_bodyLines.trans (List.sublist_append_right _ _)
  refine ⟨p, q, g.config.innerLines ops, hp, hq, hlines, hraw, hcarries, hfilter, ?_, ?_⟩
  · have hnone (l : List String) : l.filter isUnnumbered = [] ↔ ∀ e ∈ l, isUnnumbered e = false := by
      rw [List.filter_eq_nil_iff]
      exact forall₂_congr fun e _ => iff_of_eq (Bool.not_eq_true _)
    rw [forall₂_congr hcarries, ← hnone, hfilter, hnone]
  · have hmarker : isUnnumbered openMarker = true := rfl
    have hcount (l : List String) : l.count openMarker = (l.filter isUnnumbered).count openMarker :=
      (List.count_filter hmarker).symm
    have htitle : nameLetter ++ g.nextName ≠ openMarker := by
      intro heq
      have hchars := congrArg String.toList heq
      rw [String.toList_append] at hchars
      exact absurd (List.cons.inj hchars).1 (by decide)
    rw [hlines, List.count_append, List.count_cons_self, List.count_cons_of_ne htitle, hcount, hfilter, ← hcount,
      List.count_singleton_self]
    omega

end Generator

end

/-- A jump to a subprogram, given as a raw line. -/
theorem Generator.unnumbered_entries_of_subprogram :
    let g : Generator := ⟨{ Config.standard with name := some "1" }, none⟩
    let ops : List Operation := [.rawLine "O2 CALL", .rawLine "%", .stopSpindle]
    let listing := "%\nO1\nN001 G21\nN002 G90\nN003 G00 Z100 F500\nN004 G00 X0 Y0 Z100 F500\nO2 CALL\n%\nN005 M05\n"
      ++ "N006 M05\nN007 M09\nN008 G00 Z100 F500\nN009 M30\n%"
    g.config.lineNumbering = true ∧ (g.generate ops).1 = .ok listing
    ∧ ∃ p q, g.openNext.1 = .ok p
      ∧ (do Writing.carryOutAll ops; Writing.eval : Writing String).run p = .ok listing q
      ∧ q.lines.toList.count openMarker = 3 ∧ ¬ ∀ e ∈ q.lines.toList.drop 2 |>.dropLast, CarriesNumber e := by
  intro g ops listing
  have hanswer : (g.generate ops).1 = .ok listing := by
    have hends : Operation.EndsOnce ops := Operation.endsOnce_of_dropLast (by simp [ops, Operation.isTerminate])
    rw [generate_of_endsOnce g hends, verdict_of_isFinite rfl (by decide +kernel)]
    exact congrArg Except.ok (by decide)
  obtain ⟨p, q, inner, hp, hq, hlines, -, -, -, hall, hcount⟩ := unnumbered_entries rfl hanswer
  refine ⟨rfl, hanswer, p, q, hp, hq, hcount, ?_⟩
  intro h
  have hinner : (q.lines.toList.drop 2).dropLast = entries 1 inner := by
    rw [hlines]
    simp
  rw [hinner] at h
  exact absurd (hall.mp h "O2 CALL" (by simp [ops, Operation.rawText?])) (by decide)

end PartProgram
