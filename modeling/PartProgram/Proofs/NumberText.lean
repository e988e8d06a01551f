/-
What the number of a word denotes.

A float in a word is written in plain decimal, and the number written is either the float
itself or the one that its literal denotes.  A whole float is written as the integer that it
is, with all its digits, whatever its size.  Any other float takes its digits from the
shortest decimal, as its literal does; the two texts differ in where they put the point and
whether a power of ten stays behind the digits, and neither changes the number.

The shortest decimal of such a float has a negative power of ten and no zero at its end.  So
its point has digits behind it, and the last of them is that of the decimal.
-/
import PartProgram.Proofs.ShortestDecimal
import PartProgram.Word.Motion

namespace PartProgram

namespace Decimal

/-- The text has a fraction, and the last digit of the fraction counts. -/
def EndsInFraction (s : String) : Prop :=
  ∃ whole fraction, s.toList = whole ++ '.' :: fraction ∧ IsDigits fraction ∧ fraction.getLast? ≠ some '0'

/-! ### The last digit -/

theorem getLast?_digitChars (n : Nat) : (digitChars n).getLast? = some (Nat.digitChar (n % 10)) := by
  by_cases hsmall : n < 10
  · rw [digitChars, Nat.toDigits_of_lt_base hsmall, Nat.mod_eq_of_lt hsmall]
    rfl
  · rw [digitChars, Nat.toDigits_of_base_le (by decide) (Nat.not_lt.mp hsmall), List.getLast?_append]
    rfl

theorem getLast?_digitChars_ne_zero {n : Nat} (h : n % 10 ≠ 0) : (digitChars n).getLast? ≠ some '0' := by
  have hdigit : ∀ d < 10, d ≠ 0 → Nat.digitChar d ≠ '0' := by decide
  rw [getLast?_digitChars]
  intro hzero
  exact hdigit (n % 10) (Nat.mod_lt n (by decide)) h (Option.some.inj hzero)

/-- Behind the point of a decimal with a negative power of ten is its last digit. -/
theorem Scaled.endsInFraction_plainText {s : Scaled} (hexponent : s.exponent < 0) (hend : s.coefficient % 10 ≠ 0)
    (negative : Bool) : EndsInFraction (signText negative ++ s.plainText) := by
  have hdigits := isDigits_digitChars s.coefficient
  obtain ⟨whole, fraction, k, htext, -, hfraction, hall, -⟩ :=
    exists_point hdigits ((digitChars s.coefficient).length + s.exponent) (by omega) ""
  have hlast : fraction.getLast? = (digitChars s.coefficient).getLast? := by
    rw [← List.getLast?_append_of_ne_nil whole hfraction.ne_nil, hall,
      List.getLast?_append_of_ne_nil _ hdigits.ne_nil]
  refine ⟨(signText negative).toList ++ whole, fraction, ?_, hfraction, ?_⟩
  · rw [String.toList_append, List.append_assoc]
    exact congrArg _ htext
  · rw [hlast]
    exact getLast?_digitChars_ne_zero hend

/-! ### The two texts of a float

A word shows a whole float by an integer and any other float by its shortest decimal.  The
literal shows both by the shortest decimal, so for a whole float the two may denote different
numbers: the shortest decimal only has to round to the float.
-/

variable {x : Float} {b : Binary}

/-- The number that a float is, none for the infinities and for what is no number. -/
def floatValue? (x : Float) : Option ℚ := (Binary.ofFloat? x).map Binary.value

/-- The literal of a float denotes its shortest decimal, in either layout. -/
theorem denotes?_naturalText (h : Binary.ofFloat? x = some b) :
    denotes? (naturalText x) = some (signed b.negative b.shortest.value) := by
  simp only [naturalText, h]
  exact denotes?_of_spells b.shortest.spells_text b.negative

/-- A whole float is written as the integer that it is. -/
theorem plainText_of_whole {i : Int} (h : Binary.ofFloat? x = some b) (hi : b.value = i) :
    plainText x = intText i := by
  have hwhole : b.isWhole = true := Binary.exists_value_eq_iff.mp ⟨i, hi⟩
  have hint : b.toInt? = some b.truncate := by rw [Binary.toInt?, if_pos hwhole]
  have htruncate : i = b.truncate := by
    have hvalue := Binary.value_of_toInt? hint
    rw [hi] at hvalue
    exact_mod_cast hvalue
  simp only [plainText, h, hint]
  rw [htruncate]

/-- Any other float is written as its shortest decimal. -/
theorem plainText_of_not_whole (h : Binary.ofFloat? x = some b) (hwhole : b.isWhole = false) :
    plainText x = signText b.negative ++ b.shortest.plainText := by
  have hint : b.toInt? = none := by rw [Binary.toInt?, hwhole, if_neg Bool.false_ne_true]
  simp only [plainText, h, hint]

end Decimal

open Decimal

/-- **Plain decimals keep the value.**  The number of a word is a plain decimal for every finite float.  For a whole
float it denotes the integer that the float is; for any other float it denotes the same number as the literal does, and
its fraction has no zero at its end. -/
theorem Value.denotes_numberText {x : Float} (h : x.isFinite = true) : ∃ q, floatValue? x = some q
    ∧ IsPlain (Value.float x).numberText
    ∧ (∀ i : Int, q = i → denotes? (Value.float x).numberText = some (i : ℚ))
    ∧ ((∀ i : Int, q ≠ i) → EndsInFraction (Value.float x).numberText
      ∧ ∃ r, denotes? (Value.float x).numberText = some r ∧ denotes? (Value.float x).literal = some r) := by
  have hsome := Binary.isSome_of_isFinite h
  obtain ⟨b, hb⟩ := Option.isSome_iff_exists.mp hsome
  obtain ⟨hbits, he, -⟩ := Binary.bounds_of_ofFloat hb
  refine ⟨b.value, by rw [floatValue?, hb]; rfl, isPlain_plainText hsome, ?_, ?_⟩
  · intro i hi
    show denotes? (plainText x) = some (i : ℚ)
    rw [plainText_of_whole hb hi]
    exact denotes?_intText i
  · intro hnot
    have hwhole : b.isWhole = false := by
      rw [← Bool.not_eq_true, ← Binary.exists_value_eq_iff]
      rintro ⟨i, hi⟩
      exact hnot i hi
    have hexponent := Binary.shortest_exponent_neg hbits he hwhole
    have hend := (Binary.shortest_spec (Binary.significand_pos hwhole) hbits he).2.2
    have htext : (Value.float x).numberText = signText b.negative ++ b.shortest.plainText :=
      plainText_of_not_whole hb hwhole
    rw [htext]
    exact ⟨Scaled.endsInFraction_plainText hexponent hend b.negative, _,
      denotes?_of_spells b.shortest.spells_plainText b.negative, denotes?_naturalText hb⟩

/-- A small float whose literal has a power of ten, and a large one that is whole. -/
theorem Value.denotes_numberText_of_small :
    let small : Float := -1.5e-07
    let large : Float := 1e23
    let i : Int := 99999999999999991611392
    small.isFinite = true ∧ (Value.float small).numberText = "-0.00000015" ∧ (Value.float small).literal = "-1.5e-07"
    ∧ (∃ r, denotes? (Value.float small).numberText = some r ∧ denotes? (Value.float small).literal = some r)
    ∧ large.isFinite = true ∧ (Value.float large).numberText = "99999999999999991611392"
    ∧ floatValue? large = some (i : ℚ)
    ∧ denotes? (Value.float large).numberText = some (i : ℚ) := by
  intro small large i
  have hsmall : small.isFinite = true := by decide +kernel
  have hlarge : large.isFinite = true := by decide +kernel
  obtain ⟨q, hq, -, -, hfraction⟩ := denotes_numberText hsmall
  obtain ⟨n, hn, -, hwhole, -⟩ := denotes_numberText hlarge
  have hnot : ∀ j : Int, q ≠ j := by
    intro j hj
    obtain ⟨b, hb, rfl⟩ := Option.map_eq_some_iff.mp hq
    have hshort : (Binary.ofFloat? small).all (fun b => !b.isWhole) = true := by decide +kernel
    rw [hb, Option.all_some, Binary.exists_value_eq_iff.mp ⟨j, hj⟩] at hshort
    cases hshort
  have hvalue : n = i := by
    obtain ⟨b, hb, rfl⟩ := Option.map_eq_some_iff.mp hn
    have hint : (Binary.ofFloat? large).bind Binary.toInt? = some i := by decide +kernel
    rw [hb, Option.bind_some] at hint
    exact Binary.value_of_toInt? hint
  exact ⟨hsmall, by decide +kernel, by decide +kernel, (hfraction hnot).2, hlarge, by decide +kernel,
    hvalue ▸ hn, hwhole i hvalue⟩

end PartProgram
