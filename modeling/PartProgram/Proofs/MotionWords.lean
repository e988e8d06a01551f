/-
The words of motion lines.

A motion line is read the way a machine reads it, as words between spaces, and what is
behind the word of its code are its numbers.  That nothing is lost in reading a line back
depends on the texts of the numbers, which must hold no spaces.  Where every number is
finite they hold none: a number is then written as a plain decimal, unless scaling it to the
unit takes it out of the range of floats, and then it is written as an infinity.
-/
import PartProgram.Proofs.Binary64
import PartProgram.Proofs.DecimalText
import PartProgram.Proofs.Motion

namespace PartProgram

open Decimal

/-! ### Numbers in the unit of the listing -/

namespace Value

/-- Whether a number leaves the range of floats when it is scaled.  Integers have no range
to leave. -/
def overflows (factor : Nat) : Value → Bool
  | float x => (Binary.ofFloat? x).any (Binary.overflows factor)
  | _ => false

theorem overflows_float {x : Float} {b : Binary} (h : Binary.ofFloat? x = some b) (factor : Nat) :
    (float x).overflows factor = b.overflows factor := by
  simp only [overflows, h, Option.any_some]

/-- A finite float that leaves the range is written as an infinity, and any other finite
number as a plain decimal. -/
theorem numberText_scale {v : Value} (hv : v.numberFault? = none) {factor : Nat} (hf : factor ∈ [1, 10, 100, 1000]) :
    (v.overflows factor = false → IsPlain (v.scale factor).numberText)
    ∧ (v.overflows factor = true → (v.scale factor).numberText = "inf" ∨ (v.scale factor).numberText = "-inf") := by
  cases v with
  | int i => exact ⟨fun _ => isPlain_intText (i * factor), fun h => by cases h⟩
  | float x =>
      have hfinite : x.isFinite = true := by
        by_cases h : x.isFinite = true
        · exact h
        · rw [numberFault?, if_neg h] at hv
          simp at hv
      obtain ⟨b, hb⟩ := Option.isSome_iff_exists.mp (Binary.isSome_of_isFinite hfinite)
      obtain ⟨hover, hstays⟩ := Binary.mul_factor hb hf
      have htext : ((float x).scale factor).numberText = plainText (x * Float.ofNat factor) := rfl
      rw [overflows_float hb, htext]
      refine ⟨fun h => isPlain_plainText (hstays h), ?_⟩
      intro h
      obtain ⟨s, -, hs⟩ := hover h
      rw [Binary.plainText_of_infinity hs]
      cases s with
      | negative => exact Or.inr rfl
      | positive => exact Or.inl rfl
  | _ => cases hv

/-- No number leaves the range when the unit keeps it as it is. -/
theorem overflows_one (v : Value) : v.overflows 1 = false := by
  cases v with
  | float x =>
      cases hb : Binary.ofFloat? x with
      | none => simp only [overflows, hb, Option.any_none]
      | some b => exact (overflows_float hb 1).trans (Binary.overflows_one hb)
  | _ => rfl

end Value

/-! ### Words -/

/-- The words of a line: what stands between its spaces. -/
def words (line : String) : List String := (line.toList.splitOn ' ').map String.ofList

/-- The words behind the code of a motion; none where the line is no motion. -/
def motionWords (line : String) : List String :=
  match words line with
  | code :: rest => if code = "G00" ∨ code = "G01" then rest else []
  | [] => []

/-- A letter of a motion with a plain decimal behind it. -/
def IsPlainWord (w : String) : Prop := ∃ letter ∈ ["X", "Y", "Z", "F"], ∃ text, w = letter ++ text ∧ IsPlain text

/-- A letter of a motion with an infinity behind it. -/
def IsInfiniteWord (w : String) : Prop :=
  ∃ letter ∈ ["X", "Y", "Z", "F"], w = letter ++ "inf" ∨ w = letter ++ "-inf"

/-- A word splits into its letter and its text in one way only. -/
theorem word_inj {l l' s s' : String} (hl : l ∈ ["X", "Y", "Z", "F"]) (hl' : l' ∈ ["X", "Y", "Z", "F"])
    (h : l ++ s = l' ++ s') : l = l' ∧ s = s' := by
  have hone : ∀ letter ∈ ["X", "Y", "Z", "F"], letter.toList.length = 1 := by decide
  have hlists := congrArg String.toList h
  rw [String.toList_append, String.toList_append] at hlists
  exact (List.append_inj hlists ((hone l hl).trans (hone l' hl').symm)).imp String.toList_inj.mp String.toList_inj.mp

theorem not_isPlainWord_of_isInfiniteWord {w : String} (h : IsInfiniteWord w) : ¬ IsPlainWord w := by
  rintro ⟨letter, hletter, text, rfl, hplain⟩
  obtain ⟨letter', hletter', hw⟩ := h
  have htail : text = "inf" ∨ text = "-inf" :=
    hw.imp (fun heq => (word_inj hletter hletter' heq).2) fun heq => (word_inj hletter hletter' heq).2
  rcases htail with rfl | rfl
  · exact not_isPlain_of_letter (c := 'i') (by decide) rfl (by decide) (by decide) hplain
  · exact not_isPlain_of_letter (c := 'i') (by decide) rfl (by decide) (by decide) hplain

/-- Words without spaces are read back. -/
theorem words_intercalate {ws : List String} (hne : ws ≠ []) (h : ∀ w ∈ ws, ' ' ∉ w.toList) :
    words (" ".intercalate ws) = ws := by
  have hspace : ∀ l ∈ ws.map String.toList, ' ' ∉ l := by
    intro l hl
    obtain ⟨w, hw, rfl⟩ := List.mem_map.mp hl
    exact h w hw
  have hsplit := List.splitOn_intercalate ' ' hspace (fun hc => hne (List.map_eq_nil_iff.mp hc))
  rw [words, String.toList_intercalate, show " ".toList = [' '] from rfl, hsplit, List.map_map]
  exact (List.map_congr_left fun w _ => String.ofList_toList).trans (List.map_id ws)

theorem space_not_mem_toWord (code : PreparatoryCode) : ' ' ∉ code.toWord.toList := by
  cases code <;> decide

/-- A line of one word has no words of a motion. -/
theorem motionWords_of_one {line : String} (h : ' ' ∉ line.toList) : motionWords line = [] := by
  rw [motionWords, words, List.splitOn_eq_singleton h]
  exact ite_self _

/-- A line that begins with another letter is no motion. -/
theorem motionWords_of_letter {letter : String} (h : ∃ c, letter.toList = [c] ∧ c ≠ ' ' ∧ c ≠ 'G') (rest : String) :
    motionWords (letter ++ rest) = [] := by
  obtain ⟨c, hc, hspace, hg⟩ := h
  obtain ⟨code, more, hsplit⟩ := List.exists_cons_of_ne_nil (List.splitOn_ne_nil ' ' rest.toList)
  have hwords : words (letter ++ rest) = String.ofList (c :: code) :: more.map String.ofList := by
    rw [words, String.toList_append, hc, List.singleton_append, List.splitOn_cons_eq_if_modifyHead,
      if_neg (by simpa using hspace), hsplit]
    rfl
  have hcode : ¬ (String.ofList (c :: code) = "G00" ∨ String.ofList (c :: code) = "G01") := by
    have hread (other : List Char) : String.ofList (c :: code) ≠ String.ofList ('G' :: other) := by
      intro heq
      exact hg (List.cons.inj (String.ofList_inj.mp heq)).1
    exact not_or.mpr ⟨hread ['0', '0'], hread ['0', '1']⟩
  rw [motionWords, hwords]
  exact if_neg hcode

/-! ### The words of a motion -/

namespace Motion

/-- Whether a number of the motion leaves the range of floats when it is scaled. -/
def overflows (factor : Nat) (m : Motion) : Bool := m.numbers.any fun number => number.2.overflows factor

theorem letter_mem {m : Motion} {number : String × Value} (h : number ∈ m.numbers) :
    number.1 ∈ ["X", "Y", "Z", "F"] := by
  rcases List.mem_append.mp h with haxis | hfeed
  · have hall := (List.mem_filter.mp haxis).1
    simp only [List.mem_cons, List.not_mem_nil, or_false] at hall
    rcases hall with rfl | rfl | rfl <;> simp
  · rw [List.mem_singleton.mp hfeed]
    simp

variable {m : Motion} {factor : Nat}

/-- The words of finite numbers, which are infinities exactly where scaling overflows. -/
theorem numberWords_spec (hm : m.IsFinite) (hf : factor ∈ [1, 10, 100, 1000]) :
    (∀ w ∈ m.numberWords factor, IsPlainWord w ∨ IsInfiniteWord w)
    ∧ ((∀ w ∈ m.numberWords factor, IsPlainWord w) ↔ m.overflows factor = false) := by
  have hword : ∀ number ∈ m.numbers,
      (number.2.overflows factor = false → IsPlainWord (numberWord number.1 factor number.2))
      ∧ (number.2.overflows factor = true → IsInfiniteWord (numberWord number.1 factor number.2)) := by
    intro number hnumber
    obtain ⟨hplain, hinfinite⟩ := Value.numberText_scale (hm number hnumber) hf
    refine ⟨fun h => ⟨number.1, letter_mem hnumber, _, rfl, hplain h⟩, fun h => ⟨number.1, letter_mem hnumber, ?_⟩⟩
    exact (hinfinite h).imp (congrArg (number.1 ++ ·)) (congrArg (number.1 ++ ·))
  refine ⟨?_, ?_, ?_⟩
  · intro w hw
    obtain ⟨number, hnumber, rfl⟩ := List.mem_map.mp hw
    cases ho : number.2.overflows factor with
    | false => exact Or.inl ((hword number hnumber).1 ho)
    | true => exact Or.inr ((hword number hnumber).2 ho)
  · intro h
    refine List.any_eq_false.mpr ?_
    intro number hnumber ho
    exact not_isPlainWord_of_isInfiniteWord ((hword number hnumber).2 ho) (h _ (List.mem_map_of_mem hnumber))
  · intro h w hw
    obtain ⟨number, hnumber, rfl⟩ := List.mem_map.mp hw
    exact (hword number hnumber).1 ((Bool.not_eq_true _).mp (List.any_eq_false.mp h number hnumber))

/-- The numbers of a finite motion are read back from its line. -/
theorem motionWords_text (hcode : m.code = .rapid ∨ m.code = .linear) (hm : m.IsFinite)
    (hf : factor ∈ [1, 10, 100, 1000]) : motionWords (m.text factor) = m.numberWords factor := by
  have hspace : ∀ w ∈ m.code.toWord :: m.numberWords factor, ' ' ∉ w.toList := by
    intro w hw
    rcases List.mem_cons.mp hw with rfl | hnumber
    · exact space_not_mem_toWord m.code
    · have hletters : ∀ letter ∈ ["X", "Y", "Z", "F"],
          ' ' ∉ letter.toList ∧ ' ' ∉ (letter ++ "inf").toList ∧ ' ' ∉ (letter ++ "-inf").toList := by
        decide
      rcases (numberWords_spec hm hf).1 w hnumber with
        ⟨letter, hletter, text, rfl, hplain⟩ | ⟨letter, hletter, rfl | rfl⟩
      · rw [String.toList_append]
        intro hmem
        rcases List.mem_append.mp hmem with h | h
        · exact (hletters letter hletter).1 h
        · exact not_isPlain_of_letter h rfl (by decide) (by decide) hplain
      · exact (hletters letter hletter).2.1
      · exact (hletters letter hletter).2.2
  rw [← line_eq_text, line_eq, motionWords, words_intercalate (List.cons_ne_nil _ _) hspace]
  rcases hcode with h | h
  · rw [h]
    exact if_pos (Or.inl rfl)
  · rw [h]
    exact if_pos (Or.inr rfl)

end Motion

end PartProgram
