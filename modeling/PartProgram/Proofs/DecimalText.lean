/-
Numbers in plain decimal.

A plain decimal is an optional minus sign, at least one digit, and optionally a point with
at least one digit behind it.  Integers are written this way, and so is every float that is
a number: the positional layout puts digits on both sides of the point wherever it puts one,
because the digits of a number are never none.
-/
import PartProgram.Decimal.Layout

namespace PartProgram.Decimal

/-- A run of digits, not an empty one. -/
structure IsDigits (cs : List Char) : Prop where
  ne_nil : cs ≠ []
  all : ∀ c ∈ cs, c.isDigit = true

/-- Digits, and perhaps a point and digits again. -/
def IsMagnitude (cs : List Char) : Prop :=
  ∃ whole fraction, cs = whole ++ fraction ∧ IsDigits whole
    ∧ (fraction = [] ∨ ∃ digits, fraction = '.' :: digits ∧ IsDigits digits)

/-- A plain decimal: a magnitude, perhaps with a minus sign. -/
def IsPlain (s : String) : Prop := ∃ cs, (s.toList = cs ∨ s.toList = '-' :: cs) ∧ IsMagnitude cs

/-! ### Runs of digits -/

theorem IsDigits.append {a b : List Char} (ha : IsDigits a) (hb : ∀ c ∈ b, c.isDigit = true) : IsDigits (a ++ b) := by
  refine ⟨fun h => ha.ne_nil (List.append_eq_nil_iff.mp h).1, ?_⟩
  intro c hc
  rcases List.mem_append.mp hc with h | h
  · exact ha.all c h
  · exact hb c h

theorem isDigits_digitChars (n : Nat) : IsDigits (digitChars n) :=
  ⟨Nat.toDigits_ne_nil, fun _ hc => Nat.isDigit_of_mem_toDigits (by decide) (by decide) hc⟩

theorem isDigit_of_mem_zeros {k : Nat} {c : Char} (hc : c ∈ List.replicate k '0') : c.isDigit = true := by
  rw [List.eq_of_mem_replicate hc]
  rfl

/-! ### The layouts -/

theorem IsDigits.isMagnitude {cs : List Char} (h : IsDigits cs) : IsMagnitude cs :=
  ⟨cs, [], (List.append_nil cs).symm, h, Or.inl rfl⟩

theorem isMagnitude_of_point {a b : List Char} (ha : IsDigits a) (hb : IsDigits b) : IsMagnitude (a ++ '.' :: b) :=
  ⟨a, '.' :: b, rfl, ha, Or.inr ⟨b, rfl, hb⟩⟩

/-- A magnitude with or without its sign is a plain decimal. -/
theorem isPlain_signText {s : String} (h : IsMagnitude s.toList) (negative : Bool) :
    IsPlain (signText negative ++ s) := by
  cases negative with
  | true => exact ⟨s.toList, Or.inr (by simp [signText]), h⟩
  | false => exact ⟨s.toList, Or.inl (by simp [signText]), h⟩

/-- Integers are plain decimals. -/
theorem isPlain_intText (i : Int) : IsPlain (intText i) := by
  have hdigits : IsMagnitude (natText i.natAbs).toList := by
    rw [natText, String.toList_ofList]
    exact (isDigits_digitChars i.natAbs).isMagnitude
  rw [intText]
  split
  · exact isPlain_signText hdigits true
  · exact ⟨_, Or.inl rfl, hdigits⟩

/-- With fewer places in front of the point than there are digits, the point is among the digits or in front of them,
zeros filling up what is missing. -/
theorem exists_point {digits : List Char} (h : IsDigits digits) (place : Int) (hplace : place < digits.length)
    (mark : String) : ∃ whole fraction k, (positionalText mark digits place).toList = whole ++ '.' :: fraction
      ∧ IsDigits whole ∧ IsDigits fraction ∧ whole ++ fraction = List.replicate k '0' ++ digits
      ∧ (fraction.length : Int) = digits.length - place := by
  unfold positionalText
  by_cases hfront : place ≤ 0
  · rw [if_pos hfront, String.toList_ofList]
    refine ⟨['0'], List.replicate (-place).toNat '0' ++ digits, (-place).toNat + 1, rfl, isDigits_digitChars 0,
      ⟨?_, ?_⟩, rfl, ?_⟩
    · exact fun hnil => h.ne_nil (List.append_eq_nil_iff.mp hnil).2
    · intro c hc
      rcases List.mem_append.mp hc with hzero | hdigit
      · exact isDigit_of_mem_zeros hzero
      · exact h.all c hdigit
    · rw [List.length_append, List.length_replicate]
      omega
  · have hback : ¬ digits.length ≤ place.toNat := by omega
    rw [if_neg hfront, if_neg hback, String.toList_ofList]
    refine ⟨digits.take place.toNat, digits.drop place.toNat, 0, rfl,
      ⟨?_, fun c hc => h.all c (List.mem_of_mem_take hc)⟩, ⟨?_, fun c hc => h.all c (List.mem_of_mem_drop hc)⟩,
      List.take_append_drop _ _, ?_⟩
    · intro hnil
      have hlength := congrArg List.length hnil
      rw [List.length_take, List.length_nil] at hlength
      omega
    · exact fun hnil => hback (List.drop_eq_nil_iff.mp hnil)
    · rw [List.length_drop]
      omega

/-- With enough places in front of the point there is none, and the zeros are behind the digits. -/
theorem positionalText_of_le {digits : List Char} (h : IsDigits digits) {place : Int} (hplace : digits.length ≤ place)
    (mark : String) : positionalText mark digits place
      = String.ofList (digits ++ List.replicate (place.toNat - digits.length) '0') ++ mark := by
  have hpos := List.length_pos_iff.mpr h.ne_nil
  have hfront : ¬ place ≤ 0 := by omega
  have hback : digits.length ≤ place.toNat := by omega
  rw [positionalText, if_neg hfront, if_pos hback]

/-- Wherever the positional layout puts the point, there are digits on both sides of it. -/
theorem isMagnitude_positionalText {digits : List Char} (h : IsDigits digits) (place : Int) :
    IsMagnitude (positionalText "" digits place).toList := by
  by_cases hplace : place < digits.length
  · obtain ⟨whole, fraction, k, htext, hwhole, hfraction, -, -⟩ := exists_point h place hplace ""
    rw [htext]
    exact isMagnitude_of_point hwhole hfraction
  · rw [positionalText_of_le h (Int.not_lt.mp hplace), String.append_empty, String.toList_ofList]
    exact (h.append fun c hc => isDigit_of_mem_zeros hc).isMagnitude

/-- A float that is a number is written as a plain decimal. -/
theorem isPlain_plainText {x : Float} (h : (Binary.ofFloat? x).isSome = true) : IsPlain (plainText x) := by
  obtain ⟨b, hb⟩ := Option.isSome_iff_exists.mp h
  cases hint : b.toInt? with
  | some i =>
      simp only [plainText, hb, hint]
      exact isPlain_intText i
  | none =>
      simp only [plainText, hb, hint]
      exact isPlain_signText (isMagnitude_positionalText (isDigits_digitChars _) _) b.negative

/-- The words for the infinities are no plain decimals. -/
theorem not_isPlain_of_letter {s : String} {c : Char} (hc : c ∈ s.toList) (hdigit : c.isDigit = false)
    (hsign : c ≠ '-') (hpoint : c ≠ '.') : ¬ IsPlain s := by
  rintro ⟨cs, hs, whole, fraction, rfl, hwhole, hfraction⟩
  have hmem : c ∈ whole ++ fraction := by
    rcases hs with hs | hs
    · rw [hs] at hc
      exact hc
    · rw [hs] at hc
      exact (List.mem_cons.mp hc).resolve_left hsign
  rcases List.mem_append.mp hmem with h | h
  · exact absurd (hwhole.all c h) (by rw [hdigit]; exact Bool.false_ne_true)
  · rcases hfraction with rfl | ⟨digits, rfl, hdigits⟩
    · exact absurd h List.not_mem_nil
    · have hmem := (List.mem_cons.mp h).resolve_left hpoint
      exact absurd (hdigits.all c hmem) (by rw [hdigit]; exact Bool.false_ne_true)

/-- The texts of what is no finite float. -/
theorem nonFiniteText_mem (x : Float) : nonFiniteText x ∈ ["nan", "-inf", "inf"] := by
  unfold nonFiniteText
  split
  · simp
  · split <;> simp

end PartProgram.Decimal
