/-
Distance modes that are given as numerals.

A numeral counts by the float that it denotes, and the modes are the floats zero and one.  So
what names a mode is not two numbers but two intervals: the numbers that round to zero, at most
half a step of the least float away from it, and those that round to one, a quarter of a step
below it and half a step above.  Whether a numeral is written with a sign, with underscores, in
the digits of another script or with a power of ten makes no difference.
-/
import PartProgram.Proofs.LooseNumeral
import PartProgram.Proofs.ReadingBack
import PartProgram.Proofs.Written
import PartProgram.Value.Equality

namespace PartProgram

namespace Decimal

namespace Binary

/-! ### The floats zero and one -/

variable {b : Binary}

theorem normal_zero (negative : Bool) : (Binary.mk negative 0 (-1074)).Normal :=
  ⟨Nat.two_pow_pos 53, le_refl _, fun h => absurd h (lt_irrefl _)⟩

theorem normal_one : (Binary.mk false (2 ^ 52) (-52)).Normal := ⟨by decide, by decide, fun _ => le_refl _⟩

theorem toInt?_zero (negative : Bool) : (Binary.mk negative 0 (-1074)).toInt? = some 0 := by
  cases negative <;> decide +kernel

theorem toInt?_one : (Binary.mk false (2 ^ 52) (-52)).toInt? = some 1 := by decide +kernel

theorem eq_zero_of_toInt? (hb : b.Normal) (h : b.toInt? = some 0) : b = ⟨b.negative, 0, -1074⟩ := by
  have hvalue := value_of_toInt? h
  have hmagnitude : b.magnitude = 0 := by
    unfold value signed at hvalue
    split at hvalue
    · rwa [Int.cast_zero, neg_eq_zero] at hvalue
    · rwa [Int.cast_zero] at hvalue
  have hsignificand : b.significand = 0 := by
    rcases mul_eq_zero.mp hmagnitude with hzero | hzero
    · exact_mod_cast hzero
    · exact absurd hzero (two_zpow_pos _).ne'
  have hexponent := exponent_of_few_bits hb (hsignificand ▸ Nat.two_pow_pos 52)
  obtain ⟨negative, m, e⟩ := b
  dsimp only at hsignificand hexponent ⊢
  rw [hsignificand, hexponent]

theorem eq_one_of_toInt? (hb : b.Normal) (h : b.toInt? = some 1) : b = ⟨false, 2 ^ 52, -52⟩ := by
  have hvalue := value_of_toInt? h
  have hsign : b.negative = false := by
    by_contra hneg
    rw [value, signed, if_pos (by simpa using hneg), Int.cast_one] at hvalue
    linarith [b.magnitude_nonneg]
  have hmagnitude : b.magnitude = 1 := by
    rw [value, signed, hsign] at hvalue
    exact_mod_cast hvalue
  have hone : (Binary.mk false (2 ^ 52) (-52)).Attracts b.magnitude := by
    rw [attracts_one_iff, hmagnitude]
    norm_num
  exact b.attracts_magnitude.unique hb normal_one hone hsign

end Binary

open Binary

/-! ### The whole number of a numeral -/

theorem Scaled.value_nonneg (s : Scaled) : 0 ≤ s.value := mul_nonneg (Nat.cast_nonneg _) (ten_zpow_pos _).le

/-- The whole number that a numeral comes to once it is rounded to a float. -/
def Numeral.rounded? (n : Numeral) : Option Int := (ofFloat? n.toFloat).bind (·.toInt?)

theorem rounded?_eq_some {negative : Bool} {s : Scaled} {i : Int}
    (h : (Numeral.finite negative s).rounded? = some i) :
    ∃ b : Binary, b.Normal ∧ b.negative = negative ∧ b.Attracts s.value ∧ b.toInt? = some i := by
  obtain ⟨b, hb, hi⟩ := Option.bind_eq_some_iff.mp h
  have hnear := isNearest_numeral negative s
  rw [IsNearest, hb] at hnear
  exact ⟨b, (normal_of_ofFloat hb).1, hnear.1, hnear.2, hi⟩

/-- What rounds to zero is at most half a step of the least float. -/
theorem rounded?_eq_zero_iff (negative : Bool) (s : Scaled) :
    (Numeral.finite negative s).rounded? = some 0 ↔ s.value ≤ 2 ^ (-1075 : Int) := by
  constructor
  · intro h
    obtain ⟨b, hb, -, hv, hi⟩ := rounded?_eq_some h
    rw [eq_zero_of_toInt? hb hi, attracts_zero_iff] at hv
    exact hv.2
  · intro h
    have hv := (attracts_zero_iff negative).mpr ⟨s.value_nonneg, h⟩
    have hread := (isNearest_numeral negative s).ofFloat? (normal_zero negative) (show (-1074 : Int) ≤ 971 by decide) hv
    rw [Numeral.rounded?, hread, Option.bind_some]
    exact toInt?_zero negative

/-- What rounds to one is within half a step of it. -/
theorem rounded?_eq_one_iff (negative : Bool) (s : Scaled) : (Numeral.finite negative s).rounded? = some 1
    ↔ negative = false ∧ 1 - 2 ^ (-54 : Int) ≤ s.value ∧ s.value ≤ 1 + 2 ^ (-53 : Int) := by
  constructor
  · intro h
    obtain ⟨b, hb, hsign, hv, hi⟩ := rounded?_eq_some h
    rw [eq_one_of_toInt? hb hi] at hsign hv
    exact ⟨hsign.symm, (attracts_one_iff false).mp hv⟩
  · rintro ⟨rfl, h⟩
    have hv := (attracts_one_iff false).mpr h
    have hread := (isNearest_numeral false s).ofFloat? normal_one (by decide) hv
    rw [Numeral.rounded?, hread, Option.bind_some]
    exact toInt?_one

/-- Whole numbers round to zero and one only if they are these. -/
theorem rounded?_of_nat (negative : Bool) {s : Scaled} {n : Nat} (h : s.value = n) :
    ((Numeral.finite negative s).rounded? = some 0 ↔ n = 0)
      ∧ ((Numeral.finite negative s).rounded? = some 1 ↔ negative = false ∧ n = 1) := by
  rw [rounded?_eq_zero_iff, rounded?_eq_one_iff, h]
  refine ⟨⟨fun hle => ?_, ?_⟩, and_congr_right fun _ => ⟨?_, ?_⟩⟩
  · have hless : (n : ℚ) < 1 := hle.trans_lt (zpow_lt_one_of_neg₀ (by norm_num) (by norm_num))
    exact Nat.lt_one_iff.mp (by exact_mod_cast hless)
  · rintro rfl
    exact (two_zpow_pos _).le
  · rintro ⟨hlow, hhigh⟩
    have hpos : (0 : ℚ) < n := lt_of_lt_of_le (by norm_num) hlow
    have hless : (n : ℚ) < 2 := lt_of_le_of_lt hhigh (by norm_num)
    have hpos' : 0 < n := by exact_mod_cast hpos
    have hless' : n < 2 := by exact_mod_cast hless
    omega
  · rintro rfl
    norm_num

/-! ### Texts of numbers as tokens

A text that this library has written itself is a token too, that of a number given as a value.
None of its characters is changed on the way to the reader, neither by trimming nor by lower
case, and there is no underscore among them; so it is read as the number that was written.
-/

/-- A character of the text of a number. -/
def NumberChar (c : Char) : Prop := c.isDigit = true ∨ c ∈ ['.', 'e', '+', '-']

theorem digitValue?_of_isDigit {c : Char} (h : c.isDigit = true) :
    Text.digitValue? c = some (c.toNat - '0'.toNat) ∧ asciiDigit c = c := by
  rw [← isDigit_eq, isDigit, Bool.and_eq_true, decide_eq_true_eq, decide_eq_true_eq] at h
  have hvalue : Text.digitValue? c = some (c.toNat - '0'.toNat) := by rw [Text.digitValue?, if_pos h]
  have hlow : '0'.toNat ≤ c.toNat := h.1
  refine ⟨hvalue, ?_⟩
  rw [asciiDigit, hvalue]
  show Char.ofNat ('0'.toNat + (c.toNat - '0'.toNat)) = c
  rw [Nat.add_sub_cancel' hlow, Char.ofNat_toNat]

theorem NumberChar.spec {c : Char} (h : NumberChar c) : IsPart c ∧ plainChar c = c ∧ c ≠ '_' := by
  rcases h with hdigit | hmark
  · obtain ⟨hvalue, hascii⟩ := digitValue?_of_isDigit hdigit
    have hlow : lowMark c = c := if_neg (ne_of_isDigit hdigit rfl)
    exact ⟨isPart_of_digit hvalue, by rw [plainChar, hlow, hascii], ne_of_isDigit hdigit rfl⟩
  · have hmarks : ∀ c ∈ ['.', 'e', '+', '-'], c ∈ ['_', '.', '+', '-', 'e', 'E'] ∧ plainChar c = c ∧ c ≠ '_' := by
      simp only [List.mem_cons, List.not_mem_nil, or_false, forall_eq_or_imp, forall_eq]
      decide
    obtain ⟨hpart, hrest⟩ := hmarks c hmark
    exact ⟨isPart_of_mark hpart, hrest⟩

theorem ungroup?_of_numberChar {cs : List Char} (h : ∀ c ∈ cs, NumberChar c) {last : Char} (hlast : last ≠ '_') :
    ungroup? last cs = some cs := by
  induction cs generalizing last with
  | nil => rw [ungroup?, if_neg hlast]
  | cons c rest ih =>
      have hc := (h c List.mem_cons_self).spec.2.2
      rw [ungroup?_cons hlast hc, ih (fun d hd => h d (List.mem_cons_of_mem c hd)) hc]
      rfl

/-- The text of a number is the same token, and as a numeral it is read as it stands. -/
theorem readLoose?_of_numberChar {s : String} (h : ∀ c ∈ s.toList, NumberChar c) :
    Numeral.readLoose? (Text.lower (Text.trim s)) = Numeral.read? s.toList := by
  by_cases hnone : s.toList = []
  · obtain rfl := String.toList_eq_nil_iff.mp hnone
    rfl
  · have hnothing : ∀ c ∈ ([] : List Char), Text.isBlank c = true := fun c hc => absurd hc List.not_mem_nil
    have hnarrow := narrow_lower_trim hnothing hnothing (fun c hc => (h c hc).spec.1) hnone
    rw [List.nil_append, List.append_nil, String.ofList_toList,
      List.map_congr_left fun c hc => (h c hc).spec.2.1, List.map_id'] at hnarrow
    rw [Numeral.readLoose?, hnarrow, ungroup?_of_numberChar h (by decide), Option.bind_some]

theorem numberChar_of_digits {cs : List Char} (h : IsDigits cs) : ∀ c ∈ cs, NumberChar c := fun c hc =>
  Or.inl (h.all c hc)

theorem numberChar_signText {s : String} (h : ∀ c ∈ s.toList, NumberChar c) (negative : Bool) :
    ∀ c ∈ (signText negative ++ s).toList, NumberChar c := by
  intro c hc
  rw [String.toList_append] at hc
  rcases List.mem_append.mp hc with hc | hc
  · cases negative with
    | true => exact Or.inr (by simp [signText] at hc; simp [hc])
    | false => simp [signText] at hc
  · exact h c hc

theorem intText_eq (i : Int) : intText i = signText (decide (i < 0)) ++ natText i.natAbs := by
  rw [intText]
  split
  · rename_i hneg
    rw [decide_eq_true hneg]
    rfl
  · rename_i hneg
    rw [decide_eq_false hneg]
    exact String.empty_append.symm

theorem numberChar_intText (i : Int) : ∀ c ∈ (intText i).toList, NumberChar c := by
  have hdigits : ∀ c ∈ (natText i.natAbs).toList, NumberChar c := by
    rw [natText, String.toList_ofList]
    exact numberChar_of_digits (isDigits_digitChars _)
  rw [intText_eq]
  exact numberChar_signText hdigits _

theorem numberChar_positionalText {digits : List Char} (h : IsDigits digits) (place : Int) :
    ∀ c ∈ (positionalText ".0" digits place).toList, NumberChar c := by
  by_cases hplace : place < digits.length
  · obtain ⟨whole, fraction, k, htext, hwhole, hfraction, -, -⟩ := exists_point h place hplace ".0"
    rw [htext]
    intro c hc
    rcases List.mem_append.mp hc with hc | hc
    · exact Or.inl (hwhole.all c hc)
    · rcases List.mem_cons.mp hc with rfl | hc
      · exact Or.inr (by decide)
      · exact Or.inl (hfraction.all c hc)
  · rw [positionalText_of_le h (Int.not_lt.mp hplace), String.toList_append, String.toList_ofList]
    intro c hc
    have hmark : ∀ c ∈ (".0" : String).toList, NumberChar c := by
      simp [NumberChar]
    rcases List.mem_append.mp hc with hc | hc
    · rcases List.mem_append.mp hc with hc | hc
      · exact Or.inl (h.all c hc)
      · exact Or.inl (isDigit_of_mem_zeros hc)
    · exact hmark c hc

theorem numberChar_scientificText {digits : List Char} (h : IsDigits digits) (width : Nat) (exponent : Int) :
    ∀ c ∈ (scientificText width digits exponent).toList, NumberChar c := by
  have hsign : NumberChar (if exponent < 0 then '-' else '+') := by
    split
    · exact Or.inr (by decide)
    · exact Or.inr (by decide)
  intro c hc
  rw [scientificText, String.toList_ofList] at hc
  simp only [List.append_assoc, List.mem_append, List.mem_cons] at hc
  rcases hc with hc | hc | rfl | rfl | hc
  · exact Or.inl (h.all c (List.mem_of_mem_take hc))
  · split at hc
    · exact absurd hc List.not_mem_nil
    · rcases List.mem_cons.mp hc with rfl | hc
      · exact Or.inr (by decide)
      · exact Or.inl (h.all c (List.mem_of_mem_drop hc))
  · exact Or.inr (by decide)
  · exact hsign
  · exact numberChar_of_digits (isDigits_paddedDigits _ _) c hc

theorem numberChar_naturalText {x : Float} {b : Binary} (h : Binary.ofFloat? x = some b) :
    ∀ c ∈ (naturalText x).toList, NumberChar c := by
  have hdigits := isDigits_digitChars b.shortest.coefficient
  have htext : ∀ c ∈ (b.shortest.text Layout.natural).toList, NumberChar c := by
    unfold Scaled.text
    dsimp only
    split
    · simp [Layout.natural, NumberChar]
    · split
      · exact numberChar_positionalText hdigits _
      · exact numberChar_scientificText hdigits _ _
  rw [naturalText, h]
  exact numberChar_signText htext b.negative

theorem abs_signed {v : ℚ} (h : 0 ≤ v) (negative : Bool) : |signed negative v| = v := by
  cases negative with
  | true => rw [signed, if_pos rfl, abs_neg, abs_of_nonneg h]
  | false => rw [signed, if_neg Bool.false_ne_true, abs_of_nonneg h]

end Decimal

open Decimal

namespace DistanceMode

/-- A value that is no mode itself is read by its token. -/
theorem ofValue?_eq_token? [DigitLimit] {v : Value} (h : ∀ m, v ≠ .mode m) :
    ofValue? v = (v.token?.bind ofToken?).elim (.error ⟨v⟩) .ok := by
  unfold ofValue?
  split
  · exact absurd rfl (h _)
  · cases v.token?.bind ofToken? <;> rfl

/-- The mode of a whole number. -/
def ofInt? (i : Option Int) : Option DistanceMode :=
  if i = some 0 then some absolute else if i = some 1 then some relative else none

/-- A token that is a numeral names the mode of its whole number. -/
theorem ofToken?_of_numeral {token : String} {n : Numeral} (h : Numeral.readLoose? token = some n) :
    ofToken? token = ofInt? n.rounded? := by
  have hname {name : String} (hnone : Numeral.readLoose? name = none) : token ≠ name := by
    rintro rfl
    rw [h] at hnone
    cases hnone
  rw [ofToken?, if_neg (hname (by decide)), if_neg (hname (by decide)), wholeNumber?, h, Option.bind_some,
    ← Numeral.rounded?]
  unfold ofInt?
  split
  · rename_i hi
    rw [if_pos hi]
  · rename_i hi
    rw [if_neg (by rw [hi]; decide), if_pos hi]
  · rename_i h0 h1
    rw [if_neg h0, if_neg h1]

/-- **Numerals that name a mode.**  A numeral in any spelling names the absolute mode if its number rounds to the float
zero, the relative one if it rounds to the float one, and no mode otherwise. -/
theorem mode_of_numeral [DigitLimit] {s : String} {q : ℚ} (h : IsNumeral s q) : ofValue? (.text s) =
    if |q| ≤ 2 ^ (-1075 : Int) then .ok absolute
    else if 1 - 2 ^ (-54 : Int) ≤ q ∧ q ≤ 1 + 2 ^ (-53 : Int) then .ok relative
    else .error ⟨.text s⟩ := by
  obtain ⟨negative, m, hread, rfl⟩ := readLoose?_of_isNumeral h
  have hzero : (Numeral.finite negative m).rounded? = some 0 ↔ |signed negative m.value| ≤ 2 ^ (-1075 : Int) := by
    rw [rounded?_eq_zero_iff, abs_signed m.value_nonneg]
  have hone : (Numeral.finite negative m).rounded? = some 1
      ↔ 1 - 2 ^ (-54 : Int) ≤ signed negative m.value ∧ signed negative m.value ≤ 1 + 2 ^ (-53 : Int) := by
    rw [rounded?_eq_one_iff]
    cases negative with
    | false => simp [signed]
    | true =>
        have hbelow : ¬ 1 - 2 ^ (-54 : Int) ≤ signed true m.value := by
          have hnonneg := m.value_nonneg
          rw [signed, if_pos rfl]
          norm_num
          linarith
        constructor
        · rintro ⟨hsign, -⟩
          cases hsign
        · rintro ⟨hlow, -⟩
          exact absurd hlow hbelow
  have htoken : (Value.text s).token?.bind ofToken? = ofToken? (Text.lower (Text.trim s)) := by
    rw [Value.token?, Value.isWritten_text, if_pos rfl, Option.bind_some]
    rfl
  rw [ofValue?_eq_token? (by simp), htoken, ofToken?_of_numeral hread]
  by_cases h0 : (Numeral.finite negative m).rounded? = some 0
  · rw [if_pos (hzero.mp h0), ofInt?, if_pos h0]
    rfl
  · rw [if_neg (mt hzero.mpr h0)]
    by_cases h1 : (Numeral.finite negative m).rounded? = some 1
    · rw [if_pos (hone.mp h1), ofInt?, if_neg h0, if_pos h1]
      rfl
    · rw [if_neg (mt hone.mpr h1), ofInt?, if_neg h0, if_neg h1]
      rfl

/-- A numeral that is too small to be told from zero, and a one that is spelled with care. -/
theorem mode_of_numeral_of_tiny :
    IsNumeral "1e-400" (10 ^ (-400 : Int)) ∧ ofValue? (.text "1e-400") = .ok absolute
    ∧ IsNumeral " \u0661_0.E-1\n" 1 ∧ ofValue? (.text " \u0661_0.E-1\n") = .ok relative := by
  have hhundreds : DigitRun ['4', '0', '0'] [4, 0, 0] :=
    .next (by decide) (.next (by decide) (.last (by decide)))
  have htens : DigitRun ['\u0661', '_', '0'] [1, 0] := .grouped (by decide) (.last (by decide))
  have hone : DigitRun ['1'] [1] := .last (by decide)
  have hnothing : ∀ c ∈ ([] : List Char), Text.isBlank c = true := by simp
  have hspace : ∀ c ∈ [' '], Text.isBlank c = true := List.forall_mem_singleton.mpr (by decide)
  have hbreak : ∀ c ∈ ['\n'], Text.isBlank c = true := List.forall_mem_singleton.mpr (by decide)
  have htiny : IsNumeral "1e-400" (10 ^ (-400 : Int)) := by
    have h := IsNumeral.intro hnothing hnothing .none (.whole hone) (.power (Or.inl rfl) .minus hhundreds)
    simpa [signed, positional] using h
  have hspelled : IsNumeral " \u0661_0.E-1\n" 1 := by
    have h := IsNumeral.intro hspace hbreak .none (.pointed htens) (.power (Or.inr rfl) .minus hone)
    simpa [signed, positional] using h
  refine ⟨htiny, ?_, hspelled, ?_⟩
  · rw [mode_of_numeral htiny, if_pos]
    rw [abs_of_pos (Binary.ten_zpow_pos _)]
    exact ten_zpow_le_two_zpow (m := 1075) (n := 400) (by decide +kernel)
  · rw [mode_of_numeral hspelled, if_neg, if_pos]
    · norm_num
    · rw [abs_one, not_le]
      exact zpow_lt_one_of_neg₀ (by norm_num) (by norm_num)

/-! ### Numbers as tokens

An integer in full may have any number of digits, but it counts by the float nearest to it, and
only zero and one are near enough to these.  What is neither a number nor a text is written with
a bracket or a name in front, which no numeral begins with.
-/

/-- An integer, written out, names the mode that it is the number of. -/
theorem ofToken?_intText (i : Int) : ofToken? (Text.lower (Text.trim (intText i))) = ofInt? (some i) := by
  have hspells : Spells (natText i.natAbs).toList (i.natAbs : ℚ) := by
    have hdigits := spells_digits (isDigits_digitChars i.natAbs)
    rw [digitsValue_digitChars] at hdigits
    rwa [natText, String.toList_ofList]
  obtain ⟨m, hread, hvalue⟩ := exists_read?_of_spells hspells (decide (i < 0))
  rw [← intText_eq, ← readLoose?_of_numberChar (numberChar_intText i)] at hread
  obtain ⟨hzero, hone⟩ := rounded?_of_nat (decide (i < 0)) hvalue
  rw [ofToken?_of_numeral hread]
  unfold ofInt?
  simp only [hzero, hone, Option.some.injEq, decide_eq_false_iff_not]
  by_cases h0 : i = 0
  · rw [if_pos (Int.natAbs_eq_zero.mpr h0), if_pos h0]
  · rw [if_neg (mt Int.natAbs_eq_zero.mp h0), if_neg h0]
    exact if_congr (by omega) rfl rfl

/-- A float, written out, names the mode of its whole number. -/
theorem ofToken?_naturalText (x : Float) :
    ofToken? (Text.lower (Text.trim (naturalText x))) = ofInt? (Value.float x).integer? := by
  show _ = ofInt? ((Binary.ofFloat? x).bind (·.toInt?))
  cases hx : Binary.ofFloat? x with
  | some b =>
      obtain ⟨n, hread, hb⟩ := exists_read?_naturalText hx
      rw [← readLoose?_of_numberChar (numberChar_naturalText hx)] at hread
      rw [ofToken?_of_numeral hread, Numeral.rounded?, hb]
  | none =>
      have hwords : ∀ word ∈ ["nan", "-inf", "inf"], ofToken? (Text.lower (Text.trim word)) = none := by decide +kernel
      rw [naturalText, hx]
      exact hwords _ (nonFiniteText_mem x)

/-- Trimming what begins with a character that is kept leaves it in front. -/
theorem exists_dropWhile_both {p : Char → Bool} {c : Char} (h : p c = false) (rest : List Char) :
    ∃ more, (((c :: rest).dropWhile p).reverse.dropWhile p).reverse = c :: more := by
  have hc : ¬ p c = true := by simp [h]
  rw [List.dropWhile_cons_of_neg hc, List.reverse_cons, List.dropWhile_append]
  split
  · exact ⟨[], by simp [hc]⟩
  · exact ⟨_, by rw [List.reverse_append]; rfl⟩

/-- A character that no numeral begins with. -/
structure IsForeign (c : Char) : Prop where
  digit : isDigit c = false
  mark : c ∉ ['.', '+', '-', '_']
  word : c.toLower ∉ ['i', 'n']

theorem read?_of_isForeign {c : Char} (h : IsForeign c) (rest : List Char) : Numeral.read? (c :: rest) = none := by
  obtain ⟨hdigit, hmark, hword⟩ := h
  simp only [List.mem_cons, List.not_mem_nil, or_false, not_or] at hmark hword
  have hsplit : splitSign (c :: rest) = (false, c :: rest) := by
    unfold splitSign
    split
    · rename_i heq
      exact absurd (List.cons.inj heq).1 hmark.2.2.1
    · rename_i heq
      exact absurd (List.cons.inj heq).1 hmark.2.1
    · rfl
  have hne {d : Char} (word : List Char) (hd : c.toLower ≠ d) : (c :: rest).map Char.toLower ≠ d :: word :=
    fun heq => hd (List.cons.inj heq).1
  have hinfinite : ¬ ((c :: rest).map Char.toLower = "inf".toList
      ∨ (c :: rest).map Char.toLower = "infinity".toList) := not_or.mpr ⟨hne _ hword.1, hne _ hword.1⟩
  have hnan : ¬ (c :: rest).map Char.toLower = "nan".toList := hne _ hword.2
  have hmagnitude : readMagnitude? (c :: rest) = none := by
    unfold readMagnitude?
    simp [hdigit, hmark.1]
  unfold Numeral.read?
  rw [hsplit]
  dsimp only
  rw [if_neg hinfinite, if_neg hnan, hmagnitude]
  rfl

theorem readLoose?_of_isForeign {c : Char} (h : IsForeign c) (hwhite : Text.isWhiteSpace c = false)
    (hascii : asciiDigit c = c) (rest : List Char) : Numeral.readLoose? (String.ofList (c :: rest)) = none := by
  obtain ⟨more, htrim⟩ := exists_dropWhile_both hwhite rest
  have hunder : c ≠ '_' := by
    rintro rfl
    exact h.mark (by decide)
  have hnarrow : narrow (c :: rest) = c :: more.map asciiDigit := by
    rw [narrow_eq, Text.trimWhiteSpace, htrim, List.map_cons, hascii]
  rw [Numeral.readLoose?, String.toList_ofList, hnarrow, ungroup?_cons (by decide) hunder]
  cases ungroup? c (more.map asciiDigit) with
  | none => rfl
  | some l => exact read?_of_isForeign h l

/-- A text that begins with a bracket, or with the word for positions, is no token. -/
theorem ofToken?_of_bracket {c : Char} (hc : c ∈ ['[', '(', '\x7b', 'P']) (rest : List Char) :
    ofToken? (Text.lower (Text.trim (String.ofList (c :: rest)))) = none := by
  have hfront : ∀ c ∈ ['[', '(', '\x7b', 'P'], Text.isBlank c = false ∧ c.toNat ≠ 0x3a3
      ∧ Text.lowerChar c = [c.toLower] ∧ c.toLower ∈ ['[', '(', '\x7b', 'p'] := by
    simp only [List.mem_cons, List.not_mem_nil, or_false, forall_eq_or_imp, forall_eq]
    decide
  have hlow : ∀ d ∈ ['[', '(', '\x7b', 'p'], Text.isWhiteSpace d = false ∧ asciiDigit d = d ∧ d ∉ ['a', 'r']
      ∧ isDigit d = false ∧ d ∉ ['.', '+', '-', '_'] ∧ d.toLower ∉ ['i', 'n'] := by
    simp only [List.mem_cons, List.not_mem_nil, or_false, forall_eq_or_imp, forall_eq]
    decide
  obtain ⟨hblank, hsigma, hlower, hd⟩ := hfront c hc
  obtain ⟨hwhite, hascii, hname, hdigit, hmark, hword⟩ := hlow c.toLower hd
  obtain ⟨more, htrim⟩ := exists_dropWhile_both hblank rest
  have htoken : Text.lower (Text.trim (String.ofList (c :: rest)))
      = String.ofList (c.toLower :: Text.lowerFrom [c] more) := by
    have hchars : Text.trimChars (c :: rest) = c :: more := htrim
    rw [Text.lower, Text.trim, String.toList_ofList, String.toList_ofList, hchars, Text.lowerFrom_cons, Text.lowered,
      if_neg hsigma, hlower]
    rfl
  have hnames {name : String} (hhead : ∃ e ∈ ['a', 'r'], name.toList.head? = some e) :
      String.ofList (c.toLower :: Text.lowerFrom [c] more) ≠ name := by
    rintro rfl
    obtain ⟨e, he, hhead⟩ := hhead
    rw [String.toList_ofList, List.head?_cons] at hhead
    exact hname (Option.some.inj hhead ▸ he)
  rw [htoken, ofToken?, if_neg (hnames ⟨'a', by decide, by decide⟩), if_neg (hnames ⟨'r', by decide, by decide⟩),
    wholeNumber?, readLoose?_of_isForeign ⟨hdigit, hmark, hword⟩ hwhite hascii]
  rfl

theorem ofToken?_of_opening {v : Value} (opening : String) {rest : String} {c : Char} {more : List Char}
    (hopening : opening.toList = c :: more) (hc : c ∈ ['[', '(', '\x7b', 'P']) (hplain : v.plain = opening ++ rest) :
    ofToken? (Text.lower (Text.trim v.plain)) = none := by
  have htext : opening ++ rest = String.ofList (c :: (more ++ rest.toList)) := by
    rw [← String.toList_inj, String.toList_append, String.toList_ofList, hopening]
    rfl
  rw [hplain, htext, ofToken?_of_bracket hc]

/-- What is no text, number or mode has a text that is no token. -/
theorem ofToken?_of_other {v : Value} (htext : ∀ s, v ≠ .text s) (hint : ∀ i, v ≠ .int i) (hfloat : ∀ x, v ≠ .float x)
    (hmode : ∀ m, v ≠ .mode m) : ofToken? (Text.lower (Text.trim v.plain)) = none := by
  cases v with
  | null => decide +kernel
  | bool b => cases b <;> decide +kernel
  | int i => exact absurd rfl (hint i)
  | float x => exact absurd rfl (hfloat x)
  | text s => exact absurd rfl (htext s)
  | list items => exact ofToken?_of_opening "[" rfl (by decide) (String.append_assoc ..)
  | tuple items =>
      have hplain : ∃ rest, (Value.tuple items).plain = "(" ++ rest := by
        match items with
        | [] => exact ⟨_, String.append_assoc ..⟩
        | [_] => exact ⟨_, String.append_assoc ..⟩
        | _ :: _ :: _ => exact ⟨_, String.append_assoc ..⟩
      obtain ⟨rest, hrest⟩ := hplain
      exact ofToken?_of_opening _ rfl (by decide) hrest
  | map entries => exact ofToken?_of_opening "\x7b" rfl (by decide) (String.append_assoc ..)
  | position x y z =>
      have hplain : ∃ rest, (Value.position x y z).plain = "Position(x=" ++ rest := by
        refine ⟨x.literal ++ (", y=" ++ (y.literal ++ (", z=" ++ (z.literal ++ ")")))), ?_⟩
        show "Position(x=" ++ x.literal ++ ", y=" ++ y.literal ++ ", z=" ++ z.literal ++ ")" = _
        simp only [String.append_assoc]
      obtain ⟨rest, hrest⟩ := hplain
      exact ofToken?_of_opening _ rfl (by decide) hrest
  | mode m => exact absurd rfl (hmode m)

/-! ### Modes and the limit of digits

A value that cannot be written is refused before its text is looked at.  It would be refused all the same: an integer
that long is neither zero nor one, and what holds others inside has a text that begins with a bracket.  So the limit
makes no difference to what names a mode.
-/

section

variable [DigitLimit]

theorem ofToken?_of_not_isWritten {v : Value} (h : v.isWritten = false) :
    ofToken? (Text.lower (Text.trim v.plain)) = none := by
  cases v with
  | int i =>
      have hsmall (j : Int) (hj : j.natAbs < 10 ^ 640) : i ≠ j := by
        rintro rfl
        exact Bool.false_ne_true (h.symm.trans (Decimal.isWritten_of_lt hj))
      have hzero := hsmall 0 (by decide +kernel)
      have hone := hsmall 1 (by decide +kernel)
      refine (ofToken?_intText i).trans ?_
      simp [ofInt?, hzero, hone]
  | list items => exact ofToken?_of_other (by simp) (by simp) (by simp) (by simp)
  | tuple items => exact ofToken?_of_other (by simp) (by simp) (by simp) (by simp)
  | map entries => exact ofToken?_of_other (by simp) (by simp) (by simp) (by simp)
  | position x y z => exact ofToken?_of_other (by simp) (by simp) (by simp) (by simp)
  | _ => cases h

/-- A value that is no mode itself is read by its text. -/
theorem ofValue?_eq {v : Value} (h : ∀ m, v ≠ .mode m) :
    ofValue? v = (ofToken? (Text.lower (Text.trim v.plain))).elim (.error ⟨v⟩) .ok := by
  rw [ofValue?_eq_token? h, Value.token?]
  cases hv : v.isWritten with
  | true => rw [if_pos rfl, Option.bind_some]
  | false => rw [if_neg Bool.false_ne_true, ofToken?_of_not_isWritten hv, Option.bind_none]

end

end DistanceMode

end PartProgram
