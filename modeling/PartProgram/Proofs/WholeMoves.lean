/-
Moves in whole numbers, read back.

The line of a move is words between spaces, one for each number, and a word is a letter with
a text behind it.  Whole numbers are scaled and written without loss, so each text denotes
the number times the factor of the unit, and neither text nor letter holds a space.  An axis
that is missing has no word, and one that is zero has.

To read a line back is to look its letters up.  The letters are those of the axes that are
present, and the factor of a unit is never zero; so under one unit a line has come from one
move only, whichever program it was added to.
-/
import Mathlib.Data.List.Forall2
import PartProgram.Proofs.DecimalValue
import PartProgram.Proofs.MotionWords
import PartProgram.Proofs.Moves

namespace PartProgram

open Decimal

/-- A move to a target in whole numbers, axes that are missing left out. -/
structure WholeMove where
  rapid : Bool
  x : Option Int
  y : Option Int
  z : Option Int
  feed : Int
deriving DecidableEq, Repr

namespace WholeMove

variable {m m' : WholeMove} {factor : Nat} {d : Call} {p q : Program}

/-- The code of the move. -/
def code (m : WholeMove) : PreparatoryCode := if m.rapid then .rapid else .linear

/-- The value of an axis. -/
def axisValue (i : Option Int) : Value := i.elim .null .int

/-- The position that the move goes to. -/
def target (m : WholeMove) : Position := ⟨axisValue m.x, axisValue m.y, axisValue m.z⟩

/-- The move as a motion. -/
def motion (m : WholeMove) : Motion := ⟨m.code, m.target, .int m.feed⟩

/-- The numbers of the move with their letters, those of the axes in the order X, Y, Z. -/
def numbers (m : WholeMove) : List (String × Int) :=
  (m.x.map ("X", ·)).toList ++ (m.y.map ("Y", ·)).toList ++ (m.z.map ("Z", ·)).toList ++ [("F", m.feed)]

/-- A call that asks for the move, its position given in any form. -/
def AskedBy [DigitLimit] (m : WholeMove) : Call → Prop
  | .rapidMove position feed => m.rapid = true ∧ Position.ofValue? position = .ok m.target ∧ feed = .int m.feed
  | .linearMove position feed => m.rapid = false ∧ Position.ofValue? position = .ok m.target ∧ feed = .int m.feed
  | _ => False

/-- The word is the letter of a number with a text behind it that denotes the number under a factor. -/
def SpelledBy (factor : Nat) (number : String × Int) (w : String) : Prop :=
  ∃ text, w = number.1 ++ text ∧ denotes? text = some ((number.2 * factor : Int) : ℚ)

/-- The words of the line are the code of the move and its numbers, one word for each. -/
def ReadFrom (factor : Nat) (m : WholeMove) (line : String) : Prop :=
  ∃ rest, words line = m.code.toWord :: rest ∧ List.Forall₂ (SpelledBy factor) m.numbers rest

/-! ### Writing a move -/

theorem numbers_motion (m : WholeMove) : m.motion.numbers = m.numbers.map fun n => (n.1, .int n.2) := by
  have haxis (letter : String) (i : Option Int) : [(letter, axisValue i)].filter (fun c => !c.2.isNull)
      = (i.map (letter, ·)).toList.map fun n => (n.1, Value.int n.2) := by
    cases i <;> rfl
  have hcomponents : m.target.components = [("X", axisValue m.x)].filter (fun c => !c.2.isNull)
      ++ [("Y", axisValue m.y)].filter (fun c => !c.2.isNull)
      ++ [("Z", axisValue m.z)].filter (fun c => !c.2.isNull) := by
    rw [← List.filter_append, ← List.filter_append]
    rfl
  rw [Motion.numbers, motion, hcomponents, haxis, haxis, haxis, numbers]
  simp only [List.map_append, List.map_cons, List.map_nil]

theorem numberWords_motion (factor : Nat) (m : WholeMove) :
    m.motion.numberWords factor = m.numbers.map fun n => n.1 ++ intText (n.2 * factor) := by
  rw [Motion.numberWords, numbers_motion, List.map_map]
  rfl

theorem letter_mem {n : String × Int} (h : n ∈ m.numbers) : n.1 ∈ ["X", "Y", "Z", "F"] := by
  have hmem : (n.1, Value.int n.2) ∈ m.motion.numbers := by
    rw [numbers_motion]
    exact List.mem_map_of_mem h
  exact Motion.letter_mem hmem

/-- The line of a move splits into its words. -/
theorem words_line (factor : Nat) (m : WholeMove) :
    words (m.motion.line factor) = m.code.toWord :: m.numbers.map fun n => n.1 ++ intText (n.2 * factor) := by
  rw [Motion.line_eq, numberWords_motion]
  refine words_intercalate (List.cons_ne_nil _ _) ?_
  intro w hw
  rcases List.mem_cons.mp hw with rfl | hnumber
  · exact space_not_mem_toWord _
  · obtain ⟨n, hn, rfl⟩ := List.mem_map.mp hnumber
    have hletters : ∀ letter ∈ ["X", "Y", "Z", "F"], ' ' ∉ letter.toList := by decide
    rw [String.toList_append]
    intro hspace
    rcases List.mem_append.mp hspace with hletter | htext
    · exact hletters n.1 (letter_mem hn) hletter
    · exact not_isPlain_of_letter htext rfl (by decide) (by decide) (isPlain_intText _)

theorem readFrom_line (factor : Nat) (m : WholeMove) : m.ReadFrom factor (m.motion.line factor) := by
  refine ⟨_, words_line factor m, ?_⟩
  rw [List.forall₂_map_right_iff, List.forall₂_same]
  intro n _
  exact ⟨intText (n.2 * factor), rfl, denotes?_intText _⟩

/-! ### Reading a move

A move is read back by its letters.  The axes come in a fixed order and each at most once, so
the letters of the words tell which axes there are, and the numbers follow one by one.
-/

/-- The number behind a letter. -/
theorem lookup_numbers (m : WholeMove) : m.numbers.lookup "X" = m.x ∧ m.numbers.lookup "Y" = m.y
    ∧ m.numbers.lookup "Z" = m.z ∧ m.numbers.lookup "F" = some m.feed := by
  obtain ⟨rapid, x, y, z, feed⟩ := m
  cases x <;> cases y <;> cases z <;> exact ⟨rfl, rfl, rfl, rfl⟩

/-- A move is its code and its numbers. -/
theorem eq_of_numbers (hcode : m.code = m'.code) (h : m.numbers = m'.numbers) : m = m' := by
  obtain ⟨hx, hy, hz, hfeed⟩ := lookup_numbers m
  obtain ⟨hx', hy', hz', hfeed'⟩ := lookup_numbers m'
  rw [h] at hx hy hz hfeed
  have hrapid : m.rapid = m'.rapid := by
    unfold code at hcode
    cases hm : m.rapid <;> cases hm' : m'.rapid <;> simp_all
  obtain ⟨rapid, x, y, z, feed⟩ := m
  obtain ⟨rapid', x', y', z', feed'⟩ := m'
  rw [WholeMove.mk.injEq]
  exact ⟨hrapid, hx.symm.trans hx', hy.symm.trans hy', hz.symm.trans hz', Option.some.inj (hfeed.symm.trans hfeed')⟩

/-- A word spells one number only, its letter being one of a motion. -/
theorem eq_of_spelledBy (hf : factor ≠ 0) {n n' : String × Int} {w : String} (hn : n.1 ∈ ["X", "Y", "Z", "F"])
    (hn' : n'.1 ∈ ["X", "Y", "Z", "F"]) (h : SpelledBy factor n w) (h' : SpelledBy factor n' w) : n = n' := by
  obtain ⟨text, rfl, hvalue⟩ := h
  obtain ⟨text', hw, hvalue'⟩ := h'
  obtain ⟨hletter, rfl⟩ := word_inj hn hn' hw
  rw [hvalue', Option.some.injEq] at hvalue
  have hproduct : n'.2 * (factor : Int) = n.2 * factor := by exact_mod_cast hvalue
  have hnumber := Int.eq_of_mul_eq_mul_right (by exact_mod_cast hf) hproduct
  exact Prod.ext hletter hnumber.symm

theorem eq_of_forall₂ (hf : factor ≠ 0) {ns ns' : List (String × Int)} {ws : List String}
    (hns : ∀ n ∈ ns, n.1 ∈ ["X", "Y", "Z", "F"]) (hns' : ∀ n ∈ ns', n.1 ∈ ["X", "Y", "Z", "F"])
    (h : List.Forall₂ (SpelledBy factor) ns ws) (h' : List.Forall₂ (SpelledBy factor) ns' ws) : ns = ns' := by
  -- The words are the same for both lists, so going through them one by one both lists end together.
  induction h generalizing ns' with
  | nil =>
      cases h'
      rfl
  | cons hfirst _ ih =>
      cases h' with
      | cons hfirst' hrest' =>
          rw [List.forall_mem_cons] at hns hns'
          rw [eq_of_spelledBy hf hns.1 hns'.1 hfirst hfirst', ih hns.2 hns'.2 hrest']

/-- **A line is read as one move only.** -/
theorem eq_of_readFrom (hf : factor ≠ 0) {line : String} (h : m.ReadFrom factor line) (h' : m'.ReadFrom factor line) :
    m = m' := by
  obtain ⟨rest, hwords, hnumbers⟩ := h
  obtain ⟨rest', hwords', hnumbers'⟩ := h'
  obtain ⟨hcode, rfl⟩ := List.cons.inj (hwords.symm.trans hwords')
  refine eq_of_numbers ?_ (eq_of_forall₂ hf (fun _ => letter_mem) (fun _ => letter_mem) hnumbers hnumbers')
  have hinjective : ∀ a b : PreparatoryCode, a.toWord = b.toWord → a = b := by
    intro a b
    cases a <;> cases b <;> decide
  exact hinjective _ _ hcode

section

variable [DigitLimit]

/-! ### Calls -/

/-- A call that asks for a move and goes through has added its line. -/
theorem append_of_run {u : String} {answer : Option String} (hd : m.AskedBy d) (hu : p.unit = .text u)
    (hrun : d.run p = (.ok answer, q)) : q = p.append (m.motion.line (LengthUnit.factor u)) := by
  have hfactor : p.factor = LengthUnit.factor u := by rw [Program.factor, hu]
  have hfeed : p.feedOf (.int m.feed) = .int m.feed := rfl
  rw [Motion.line_eq_text, motion, ← hfactor, ← hfeed]
  cases d with
  | rapidMove position feed =>
      obtain ⟨hrapid, hposition, rfl⟩ := hd
      rw [show m.code = .rapid from if_pos hrapid]
      exact Call.append_of_move rfl hposition hrun
  | linearMove position feed =>
      obtain ⟨hrapid, hposition, rfl⟩ := hd
      rw [show m.code = .linear from if_neg (by rw [hrapid]; exact Bool.false_ne_true)]
      exact Call.append_of_move rfl hposition hrun
  | _ => exact hd.elim

/-- **Moves in whole numbers are uniquely decodable.**  Under a known unit, a call that asks for a move and goes through
adds one line.  Its words are the code, one word for each axis that is present, and the feed rate, each of them denoting
its number times the factor of the unit.  No other move has the same line under that unit, asked for by whatever call on
whatever program. -/
theorem decodes_run {u : String} (hf : LengthUnit.factor? u = some factor) (hu : p.unit = .text u) (hd : m.AskedBy d)
    {answer : Option String} (hrun : d.run p = (.ok answer, q)) :
    ∃ line, q = p.append line ∧ m.ReadFrom factor line
    ∧ ∀ (m' : WholeMove) (d' : Call) (p' : Program) (answer' : Option String), m'.AskedBy d' → p'.unit = .text u →
      d'.run p' = (.ok answer', p'.append line) → m' = m := by
  have hfactor : LengthUnit.factor u = factor := by rw [LengthUnit.factor, hf, Option.getD_some]
  have hne : factor ≠ 0 := by
    rintro rfl
    have hmem := LengthUnit.factor_mem u
    rw [hfactor] at hmem
    exact absurd hmem (by decide)
  refine ⟨m.motion.line factor, ?_, readFrom_line factor m, ?_⟩
  · rw [append_of_run hd hu hrun, hfactor]
  · intro m' d' p' answer' hd' hu' hrun'
    have hline := Program.append_injective (append_of_run hd' hu' hrun')
    rw [hfactor] at hline
    exact eq_of_readFrom hne (hline ▸ readFrom_line factor m') (readFrom_line factor m)

end

/-- A move in centimetres with one axis missing and another at zero. -/
theorem decodes_run_of_centimetres :
    let c : Config := { Config.standard with name := some "1", unit := "cm" }
    let m : WholeMove := ⟨false, none, some 0, some (-3), 50⟩
    let d : Call := .linearMove (.position .null (.int 0) (.int (-3))) (.int 50)
    let line := "G01 Y0 Z-30 F500"
    LengthUnit.factor? "cm" = some 10 ∧ m.AskedBy d
    ∧ ∃ p, (Program.openNext c .standard).1 = .ok p ∧ p.unit = .text "cm" ∧ d.run p = (.ok none, p.append line)
      ∧ m.ReadFrom 10 line
      ∧ ∀ (m' : WholeMove) (d' : Call) (p' : Program) (answer' : Option String), m'.AskedBy d' →
        p'.unit = .text "cm" → d'.run p' = (.ok answer', p'.append line) → m' = m := by
  intro c m d line
  have hf : LengthUnit.factor? "cm" = some 10 := by decide
  have hd : m.AskedBy d := ⟨rfl, rfl, rfl⟩
  have hopen : (Program.openNext c .standard).1 = .ok (Program.opened c "1") :=
    Program.openNext_of_isFinite rfl (by decide +kernel) (by decide +kernel)
  have ho := Program.isOpen_opened c "1"
  have hfollows := Program.follows_opened c "1"
  generalize Program.opened c "1" = p at hopen ho hfollows
  have hstrict : p.config.strict = false := congrArg Config.strict hfollows.config
  have hasked : d.line? p = some (.ok line) := by
    show some (p.motion .linear m.target (.int 50)) = _
    have htext : Motion.text 10 ⟨.linear, m.target, .int 50⟩ = line := by decide +kernel
    have hwritten : Motion.IsWritten 10 ⟨.linear, m.target, .int 50⟩ := by decide +kernel
    have hadmitted : p.config.admitsUnder 10 ⟨.linear, m.target, .int 50⟩ = .ok () :=
      Config.admitsUnder_eq_ok.mpr ⟨fun h => Bool.noConfusion (hstrict.symm.trans h), hwritten⟩
    rw [Program.motion_of_text hfollows.unit]
    refine (congrArg (fun r : Except ProgramError Unit => some (r.map fun _ => _)) hadmitted).trans ?_
    exact congrArg (fun s => some (Except.ok s)) htext
  have hrun : d.run p = (.ok none, p.append line) :=
    (Call.run_of_open ho hasked).trans (congrArg _ (Program.append_inMode line p))
  obtain ⟨line', hline, hread, honly⟩ := decodes_run hf hfollows.unit hd hrun
  obtain rfl : line = line' := Program.append_injective hline
  exact ⟨hf, hd, p, hopen, hfollows.unit, hrun, hread, honly⟩

end WholeMove

end PartProgram
