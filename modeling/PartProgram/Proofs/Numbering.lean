/-
What the numbering of lines does.

A line enters the buffer behind the next number, unless lines are not numbered at all or it
is one of those that go without.  `entries` is that rule for a whole list of lines, and it
only looks at the number to begin with: the number of a line is the number to begin with
plus the count of numbered lines before it, so the numbers are consecutive.

Nothing is lost on the way.  The lines that go without a number begin with one of two
characters, the numbered entries all begin with a third one, and the number word holds no
space; so an entry tells whether it carries a number, and the line is what follows the first
space.
-/
import PartProgram.Program.Basic

namespace PartProgram.Numbering

/-- Whether a line carries a number where lines do. -/
def isNumbered (line : String) : Bool := !isUnnumbered line

/-- What stands in the buffer for a line when `n` is the next number; zero where lines are
not numbered. -/
def entry (n : Nat) (line : String) : String :=
  if n ≠ 0 ∧ isNumbered line = true then lineNumberWord n ++ " " ++ line else line

/-- The next number after some lines. -/
def numberAfter (n : Nat) (lines : List String) : Nat := if n = 0 then 0 else n + lines.countP isNumbered

/-- What stands in the buffer for some lines. -/
def entries (n : Nat) : List String → List String
  | [] => []
  | line :: rest => entry n line :: entries (numberAfter n [line]) rest

/-! ### The rule for a whole list

To add lines in two parts is to add them at once, and the second part only has to know the
number that the first one leaves.  Everything about the numbers of a buffer comes down to this.
-/

@[simp]
theorem numberAfter_nil (n : Nat) : numberAfter n [] = n := by
  unfold numberAfter
  split
  · rename_i h
    exact h.symm
  · rfl

theorem numberAfter_append (n : Nat) (a b : List String) :
    numberAfter n (a ++ b) = numberAfter (numberAfter n a) b := by
  unfold numberAfter
  by_cases h : n = 0
  · simp [h]
  · have hne : n + a.countP isNumbered ≠ 0 := by omega
    rw [if_neg h, if_neg h, if_neg hne, List.countP_append]
    omega

theorem entries_append (n : Nat) (a b : List String) :
    entries n (a ++ b) = entries n a ++ entries (numberAfter n a) b := by
  induction a generalizing n with
  | nil => simp [entries]
  | cons line rest ih =>
      have hsplit : numberAfter n (line :: rest) = numberAfter (numberAfter n [line]) rest :=
        numberAfter_append n [line] rest
      rw [hsplit, List.cons_append, entries, entries, ih, List.cons_append]

@[simp]
theorem length_entries (n : Nat) (lines : List String) : (entries n lines).length = lines.length := by
  induction lines generalizing n with
  | nil => rfl
  | cons line rest ih => simp [entries, ih]

/-- Without numbers a line stands for itself. -/
theorem entries_zero (lines : List String) : entries 0 lines = lines := by
  induction lines with
  | nil => rfl
  | cons line rest ih =>
      have hnext : numberAfter 0 [line] = 0 := rfl
      have hentry : entry 0 line = line := if_neg fun h => h.1 rfl
      rw [entries, hnext, hentry, ih]

/-- The entry at a place depends on the lines before it through their count alone. -/
theorem getElem?_entries (n : Nat) (lines : List String) (i : Nat) :
    (entries n lines)[i]? = lines[i]?.map (entry (numberAfter n (lines.take i))) := by
  induction lines generalizing n i with
  | nil => simp [entries]
  | cons line rest ih =>
      cases i with
      | zero => simp [entries]
      | succ i =>
          rw [entries, List.getElem?_cons_succ, List.getElem?_cons_succ, ih, List.take_succ_cons,
            ← numberAfter_append n [line] (rest.take i)]
          rfl

/-! ### Reading entries back

`lineOf` and `wordOf` look at an entry alone.  That they undo `entry` rests on two facts
about the number word: its first character is neither of those that unnumbered lines begin
with, and a space does not occur in it.
-/

/-- The line of an entry among numbered ones: all of it where it carries no number, and
otherwise what follows the first space. -/
def lineOf (e : String) : String :=
  if isNumbered e then String.ofList ((e.toList.dropWhile (· ≠ ' ')).drop 1) else e

/-- The number word of an entry, where it carries one: what stands before the first space.
-/
def wordOf (e : String) : Option String :=
  if isNumbered e then some (String.ofList (e.toList.takeWhile (· ≠ ' '))) else none

/-- The characters of the number word after its letter. -/
def wordDigits (n : Nat) : List Char := Decimal.paddedDigits 3 n

theorem toList_lineNumberWord (n : Nat) : (lineNumberWord n).toList = 'N' :: wordDigits n := by
  have hpos : ¬ ((n : Int) < 0) := by omega
  simp [lineNumberWord, Decimal.paddedText, hpos, wordDigits]

theorem isDigit_of_mem_wordDigits {n : Nat} {c : Char} (hc : c ∈ wordDigits n) : c.isDigit = true := by
  rcases List.mem_append.mp hc with hzero | hdigit
  · rw [List.eq_of_mem_replicate hzero]
    rfl
  · exact Nat.isDigit_of_mem_toDigits (by omega) (by omega) hdigit

/-- Every number has a word of its own. -/
theorem lineNumberWord_injective {m n : Nat} (h : lineNumberWord m = lineNumberWord n) : m = n := by
  have hvalue : ∀ k : Nat, Nat.ofDigitChars 10 (wordDigits k) 0 = k := by
    intro k
    rw [wordDigits, Decimal.paddedDigits, Nat.ofDigitChars_append, Nat.ofDigitChars_replicate_zero, Nat.mul_zero]
    exact Nat.ofDigitChars_ten_toDigits
  have hdigits : wordDigits m = wordDigits n := by
    have hchars := congrArg String.toList h
    rw [toList_lineNumberWord, toList_lineNumberWord] at hchars
    exact (List.cons.inj hchars).2
  rw [← hvalue m, ← hvalue n, hdigits]

theorem ne_space_of_mem_word {n : Nat} {c : Char} (hc : c ∈ (lineNumberWord n).toList) : c ≠ ' ' := by
  rw [toList_lineNumberWord] at hc
  rcases List.mem_cons.mp hc with hletter | hdigit
  · rw [hletter]
    decide
  · rintro rfl
    exact absurd (isDigit_of_mem_wordDigits hdigit) (by decide)

theorem toList_entry {n : Nat} {line : String} (hn : n ≠ 0) (hline : isNumbered line = true) :
    (entry n line).toList = (lineNumberWord n).toList ++ ' ' :: line.toList := by
  rw [entry, if_pos ⟨hn, hline⟩]
  simp

/-- An entry carries a number exactly when its line does. -/
theorem isNumbered_entry {n : Nat} (line : String) : isNumbered (entry n line) = isNumbered line := by
  by_cases h : n ≠ 0 ∧ isNumbered line = true
  · rw [h.2, isNumbered, isUnnumbered, toList_entry h.1 h.2, toList_lineNumberWord]
    rfl
  · rw [entry, if_neg h]

theorem lineOf_entry {n : Nat} (hn : n ≠ 0) (line : String) : lineOf (entry n line) = line := by
  unfold lineOf
  rw [isNumbered_entry]
  by_cases h : isNumbered line = true
  · have hdrop : ((entry n line).toList.dropWhile (· ≠ ' ')) = ' ' :: line.toList := by
      rw [toList_entry hn h, List.dropWhile_append_of_pos]
      · simp
      · intro c hc
        exact decide_eq_true (ne_space_of_mem_word hc)
    rw [if_pos h, hdrop]
    simp
  · rw [if_neg h, entry, if_neg fun hc => h hc.2]

/-- Under the same number, lines that are not the same have entries that are not the same. -/
theorem entry_injective {n : Nat} {a b : String} (h : entry n a = entry n b) : a = b := by
  by_cases hn : n = 0
  · have hentry (line : String) : entry n line = line := if_neg fun hc => hc.1 hn
    rwa [hentry, hentry] at h
  · rw [← lineOf_entry hn a, h, lineOf_entry hn]

theorem wordOf_entry {n : Nat} (hn : n ≠ 0) (line : String) :
    wordOf (entry n line) = if isNumbered line then some (lineNumberWord n) else none := by
  unfold wordOf
  rw [isNumbered_entry]
  by_cases h : isNumbered line = true
  · have htake : ((entry n line).toList.takeWhile (· ≠ ' ')) = (lineNumberWord n).toList := by
      rw [toList_entry hn h, List.takeWhile_append_of_pos]
      · simp
      · intro c hc
        exact decide_eq_true (ne_space_of_mem_word hc)
    rw [if_pos h, if_pos h, htake, String.ofList_toList]
  · rw [if_neg h, if_neg h]

theorem numberAfter_ne_zero {n : Nat} (hn : n ≠ 0) (lines : List String) : numberAfter n lines ≠ 0 := by
  rw [numberAfter, if_neg hn]
  omega

/-- The lines of numbered entries are the lines that were numbered. -/
theorem map_lineOf_entries {n : Nat} (hn : n ≠ 0) (lines : List String) :
    (entries n lines).map lineOf = lines := by
  induction lines generalizing n with
  | nil => rfl
  | cons line rest ih =>
      rw [entries, List.map_cons, lineOf_entry hn, ih (numberAfter_ne_zero hn [line])]

/-- The number words of numbered entries count up from the number to begin with. -/
theorem filterMap_wordOf_entries {n : Nat} (hn : n ≠ 0) (lines : List String) :
    (entries n lines).filterMap wordOf
      = (List.range (lines.countP isNumbered)).map fun k => lineNumberWord ((n + k : Nat) : Int) := by
  induction lines generalizing n with
  | nil => rfl
  | cons line rest ih =>
      rw [entries, List.filterMap_cons, wordOf_entry hn, ih (numberAfter_ne_zero hn [line])]
      by_cases h : isNumbered line = true
      · have hnext : numberAfter n [line] = n + 1 := by simp [numberAfter, hn, h]
        rw [if_pos h, hnext, List.countP_cons_of_pos h, List.range_succ_eq_map, List.map_cons, List.map_map]
        simp only [Function.comp_def, Nat.add_zero, Nat.succ_eq_add_one]
        refine congrArg (lineNumberWord n :: ·) (List.map_congr_left ?_)
        intro k _
        rw [show n + 1 + k = n + (k + 1) by omega]
      · have hnext : numberAfter n [line] = n := by simp [numberAfter, hn, h]
        rw [if_neg h, hnext, List.countP_cons_of_neg h]

end PartProgram.Numbering

namespace PartProgram.Program

open PartProgram.Numbering

/-! ### The buffer of a program -/

/-- A line that is added changes the buffer and the next number, and nothing else. -/
theorem append_eq (line : String) (p : Program) :
    p.append line = { p with
      lines := p.lines.push (entry p.nextNumber line)
      nextNumber := numberAfter p.nextNumber [line] } := by
  by_cases h : p.nextNumber ≠ 0 ∧ isNumbered line = true
  · have hcond : (decide (p.nextNumber ≠ 0) && !isUnnumbered line) = true := by
      rw [Bool.and_eq_true, decide_eq_true_eq]
      exact h
    have hnext : numberAfter p.nextNumber [line] = p.nextNumber + 1 := by simp [numberAfter, h.1, h.2]
    rw [append, if_pos hcond, entry, if_pos h, hnext]
  · have hcond : ¬ (decide (p.nextNumber ≠ 0) && !isUnnumbered line) = true := by
      rw [Bool.and_eq_true, decide_eq_true_eq]
      exact h
    have hnext : numberAfter p.nextNumber [line] = p.nextNumber := by
      by_cases h0 : p.nextNumber = 0
      · simp [numberAfter, h0]
      · have hn : ¬ isNumbered line = true := fun hc => h ⟨h0, hc⟩
        simp [numberAfter, h0, hn]
    rw [append, if_neg hcond, entry, if_neg h, hnext]

theorem lines_append (line : String) (p : Program) :
    (p.append line).lines.toList = p.lines.toList ++ entries p.nextNumber [line] := by
  rw [append_eq, Array.toList_push]
  rfl

/-- What was added shows in the program. -/
theorem append_injective {p : Program} {a b : String} (h : p.append a = p.append b) : a = b := by
  have hlines := congrArg (fun q : Program => q.lines.toList) h
  simp only [lines_append] at hlines
  exact entry_injective (List.cons.inj (List.append_cancel_left hlines)).1

@[simp]
theorem nextNumber_append (line : String) (p : Program) :
    (p.append line).nextNumber = numberAfter p.nextNumber [line] := by
  rw [append_eq]

/-- The program `q` has the buffer of `p` with the entries of some lines behind it, and
numbers on from there. -/
structure Grown (p : Program) (raw : List String) (q : Program) : Prop where
  lines : q.lines.toList = p.lines.toList ++ entries p.nextNumber raw
  nextNumber : q.nextNumber = numberAfter p.nextNumber raw

namespace Grown

theorem refl (p : Program) : Grown p [] p := ⟨by simp [entries], by simp⟩

theorem append (p : Program) (line : String) : Grown p [line] (p.append line) :=
  ⟨lines_append line p, nextNumber_append line p⟩

theorem trans {p q r : Program} {a b : List String} (h : Grown p a q) (h' : Grown q b r) :
    Grown p (a ++ b) r := by
  refine ⟨?_, ?_⟩
  · rw [h'.lines, h.lines, h.nextNumber, entries_append, List.append_assoc]
  · rw [h'.nextNumber, h.nextNumber, numberAfter_append]

theorem snoc {p q : Program} {a : List String} (h : Grown p a q) (line : String) :
    Grown p (a ++ [line]) (q.append line) :=
  h.trans (append q line)

/-- Only the buffer and the next number count. -/
theorem congr {p q r : Program} {a : List String} (h : Grown p a q) (hl : r.lines = q.lines)
    (hn : r.nextNumber = q.nextNumber) : Grown p a r :=
  ⟨by rw [hl, h.lines], by rw [hn, h.nextNumber]⟩

end Grown

end PartProgram.Program
