/-
The number that a decimal text denotes.

A text is read as a numeral, without any rounding, so what it denotes is a rational number.
A decimal is digits and a power of ten, and a layout only decides where the point goes and
whether a power of ten stays behind the digits.  Reading undoes each of these decisions in
the same way: the digits of the text are those of the decimal, perhaps with zeros added, and
the places behind the point are taken off the power of ten.  Whatever the layout, the text
denotes the decimal that was written.
-/
import Mathlib.Algebra.Order.Field.Rat
import Mathlib.Tactic.Ring
import PartProgram.Decimal.Numeral
import PartProgram.Proofs.DecimalText

namespace PartProgram.Decimal

/-- The number that a decimal is. -/
def Scaled.value (s : Scaled) : ℚ := s.coefficient * 10 ^ s.exponent

/-- A magnitude with its sign. -/
def signed (negative : Bool) (q : ℚ) : ℚ := if negative then -q else q

/-- The number that a numeral spells, none where it is one of the words. -/
def Numeral.value? : Numeral → Option ℚ
  | finite negative s => some (signed negative s.value)
  | infinite _ | notANumber => none

/-- The number that a text denotes. -/
def denotes? (text : String) : Option ℚ := (Numeral.read? text.toList).bind Numeral.value?

/-! ### Runs of digits -/

theorem isDigit_eq (c : Char) : isDigit c = c.isDigit := by
  rw [Bool.eq_iff_iff]
  simp [isDigit, Char.isDigit, Char.le_def]

theorem IsDigits.all_isDigit {cs : List Char} (h : IsDigits cs) : cs.all isDigit = true := by
  rw [List.all_eq_true]
  intro c hc
  rw [isDigit_eq]
  exact h.all c hc

/-- Digits are read from the left, ten times what was read before and the next one. -/
theorem digitsValue_eq {cs : List Char} (h : ∀ c ∈ cs, c.isDigit = true) :
    digitsValue 10 cs = Nat.ofDigitChars 10 cs 0 := by
  have hfold : ∀ n, cs.foldl (fun n c => n * 10 + (if isDigit c then c.toNat - '0'.toNat
      else c.toLower.toNat - 'a'.toNat + 10)) n = Nat.ofDigitChars 10 cs n := by
    -- What has been read so far is multiplied on, so the statement is about every start of the fold.
    induction cs with
    | nil => intro n; rfl
    | cons c rest ih =>
        intro n
        have hc : isDigit c = true := (isDigit_eq c).trans (h c List.mem_cons_self)
        rw [List.foldl_cons, if_pos hc, ih (fun d hd => h d (List.mem_cons_of_mem c hd)), Nat.ofDigitChars_cons,
          Nat.mul_comm]
  exact hfold 0

theorem digitsValue_digitChars (n : Nat) : digitsValue 10 (digitChars n) = n := by
  rw [digitsValue_eq (isDigits_digitChars n).all]
  exact Nat.ofDigitChars_ten_toDigits

/-- Zeros in front of digits count for nothing. -/
theorem digitsValue_zeros {cs : List Char} (h : ∀ c ∈ cs, c.isDigit = true) (k : Nat) :
    digitsValue 10 (List.replicate k '0' ++ cs) = digitsValue 10 cs := by
  have hall : ∀ c ∈ List.replicate k '0' ++ cs, c.isDigit = true := by
    intro c hc
    rcases List.mem_append.mp hc with hzero | hdigit
    · exact isDigit_of_mem_zeros hzero
    · exact h c hdigit
  rw [digitsValue_eq hall, digitsValue_eq h, Nat.ofDigitChars_append, Nat.ofDigitChars_replicate_zero, Nat.mul_zero]

/-- Zeros behind digits count for powers of ten. -/
theorem digitsValue_append_zeros {cs : List Char} (h : ∀ c ∈ cs, c.isDigit = true) (k : Nat) :
    digitsValue 10 (cs ++ List.replicate k '0') = digitsValue 10 cs * 10 ^ k := by
  have hall : ∀ c ∈ cs ++ List.replicate k '0', c.isDigit = true := by
    intro c hc
    rcases List.mem_append.mp hc with hdigit | hzero
    · exact h c hdigit
    · exact isDigit_of_mem_zeros hzero
  rw [digitsValue_eq hall, digitsValue_eq h, Nat.ofDigitChars_append, Nat.ofDigitChars_replicate_zero, Nat.mul_comm]

theorem isDigits_paddedDigits (width n : Nat) : IsDigits (paddedDigits width n) := by
  refine ⟨fun h => (isDigits_digitChars n).ne_nil (List.append_eq_nil_iff.mp h).2, ?_⟩
  intro c hc
  rcases List.mem_append.mp hc with hzero | hdigit
  · exact isDigit_of_mem_zeros hzero
  · exact (isDigits_digitChars n).all c hdigit

theorem digitsValue_paddedDigits (width n : Nat) : digitsValue 10 (paddedDigits width n) = n := by
  rw [paddedDigits, digitsValue_zeros (isDigits_digitChars n).all, digitsValue_digitChars]

/-! ### Reading a magnitude

A magnitude is read up to where its digits end, so what is behind it has to be something that
does not go on with a digit.  That is all that has to be known of it, and the facts here are
stated with any such tail; a power of ten and the end of the text are two of them.
-/

/-- What follows a run of digits does not go on with one. -/
def EndsDigits (tail : List Char) : Prop := ∀ c ∈ tail.head?, c.isDigit = false

theorem endsDigits_cons {c : Char} (h : c.isDigit = false) (rest : List Char) : EndsDigits (c :: rest) := by
  intro d hd
  rw [List.head?_cons, Option.mem_some_iff] at hd
  rw [← hd, h]

theorem takeWhile_digits {cs tail : List Char} (h : ∀ c ∈ cs, c.isDigit = true) (ht : EndsDigits tail) :
    (cs ++ tail).takeWhile isDigit = cs ∧ (cs ++ tail).dropWhile isDigit = tail := by
  have hcs : ∀ c ∈ cs, isDigit c = true := fun c hc => (isDigit_eq c).trans (h c hc)
  rw [List.takeWhile_append_of_pos hcs, List.dropWhile_append_of_pos hcs]
  cases tail with
  | nil => simp
  | cons c rest =>
      have hc : isDigit c = false := (isDigit_eq c).trans (ht c rfl)
      simp [hc]

/-- Digits without a point, up to the power of ten. -/
theorem readMagnitude?_whole {whole tail : List Char} (h : IsDigits whole) (ht : EndsDigits tail)
    (hpoint : tail.head? ≠ some '.') :
    readMagnitude? (whole ++ tail) = (readExponent? tail).map fun e => ⟨digitsValue 10 whole, e⟩ := by
  obtain ⟨htake, hdrop⟩ := takeWhile_digits h.all ht
  have hne : whole.isEmpty = false := List.isEmpty_eq_false_iff.mpr h.ne_nil
  unfold readMagnitude?
  rw [htake, hdrop]
  cases tail with
  | nil => simp [hne]
  | cons c rest =>
      have hc : c ≠ '.' := fun heq => hpoint (congrArg some heq)
      simp [hne, hc]

/-- Digits around a point, up to the power of ten; on one side of the point there may be none. -/
theorem readMagnitude?_around {whole fraction tail : List Char} (hw : ∀ c ∈ whole, c.isDigit = true)
    (hf : ∀ c ∈ fraction, c.isDigit = true) (hne : whole ++ fraction ≠ []) (ht : EndsDigits tail) :
    readMagnitude? (whole ++ '.' :: (fraction ++ tail)) = (readExponent? tail).map fun e =>
      ⟨digitsValue 10 (whole ++ fraction), e - fraction.length⟩ := by
  obtain ⟨htake, hdrop⟩ := takeWhile_digits hw (endsDigits_cons (c := '.') rfl (fraction ++ tail))
  obtain ⟨htake', hdrop'⟩ := takeWhile_digits hf ht
  have hsome : ¬ (whole = [] ∧ fraction = []) := fun h => hne (List.append_eq_nil_iff.mpr h)
  unfold readMagnitude?
  rw [htake, hdrop]
  simp [htake', hdrop', hsome]

theorem readMagnitude?_point {whole fraction tail : List Char} (h : IsDigits whole)
    (hf : ∀ c ∈ fraction, c.isDigit = true) (ht : EndsDigits tail) :
    readMagnitude? (whole ++ '.' :: (fraction ++ tail)) = (readExponent? tail).map fun e =>
      ⟨digitsValue 10 (whole ++ fraction), e - fraction.length⟩ :=
  readMagnitude?_around h.all hf (List.append_ne_nil_of_left_ne_nil h.ne_nil _) ht

/-- The digits of an exponent behind its sign. -/
theorem readExponent?_digits {digits : List Char} (h : IsDigits digits) (negative : Bool) :
    readExponent? ('e' :: (if negative then '-' else '+') :: digits)
      = some (if negative then -(digitsValue 10 digits : Int) else (digitsValue 10 digits : Int)) := by
  have hne : digits.isEmpty = false := List.isEmpty_eq_false_iff.mpr h.ne_nil
  cases negative with
  | true => simp [readExponent?, splitSign, hne, h.all_isDigit]
  | false => simp [readExponent?, splitSign, hne, h.all_isDigit]

/-! ### Reading a text

Before its magnitude a text may have a sign, and it may be one of the words for what is no
number.  What begins with a digit or a point is none of these words, and so for texts that
`Spells` holds of nothing but the magnitude is left to be read.
-/

/-- The characters are a magnitude that is read as the number. -/
structure Spells (cs : List Char) (q : ℚ) : Prop where
  /-- They begin with a digit, and so with neither a sign nor a word. -/
  digit : ∃ c rest, cs = c :: rest ∧ c.isDigit = true
  value : ∃ s, readMagnitude? cs = some s ∧ s.value = q

theorem IsDigits.head {whole : List Char} (h : IsDigits whole) (tail : List Char) :
    ∃ c rest, whole ++ tail = c :: rest ∧ c.isDigit = true := by
  obtain ⟨c, rest, rfl⟩ := List.exists_cons_of_ne_nil h.ne_nil
  exact ⟨c, rest ++ tail, rfl, h.all c List.mem_cons_self⟩

theorem ne_of_isDigit {c d : Char} (hc : c.isDigit = true) (hd : d.isDigit = false) : c ≠ d := by
  rintro rfl
  rw [hc] at hd
  cases hd

theorem splitSign_signText {c : Char} (hc : c.isDigit = true) (rest : List Char) (negative : Bool) :
    splitSign ((signText negative).toList ++ c :: rest) = (negative, c :: rest) := by
  cases negative with
  | true => rfl
  | false =>
      show splitSign (c :: rest) = _
      unfold splitSign
      split
      · rename_i heq
        exact absurd (List.cons.inj heq).1 (ne_of_isDigit hc rfl)
      · rename_i heq
        exact absurd (List.cons.inj heq).1 (ne_of_isDigit hc rfl)
      · rfl

theorem toLower_of_isDigit {c : Char} (hc : c.isDigit = true) : c.toLower = c := by
  have hle : c.val ≤ '9'.val := by
    simp only [Char.isDigit, Bool.and_eq_true, decide_eq_true_eq] at hc
    exact hc.2
  have hno : ¬ (c.val ≥ 'A'.val ∧ c.val ≤ 'Z'.val) := by
    rintro ⟨hge, -⟩
    exact absurd (UInt32.le_trans hge hle) (by decide)
  exact dif_neg hno

/-- What begins with a digit or a point behind its sign is none of the words, and is read as a magnitude. -/
theorem read?_of_splitSign {cs rest : List Char} {negative : Bool} (hsplit : splitSign cs = (negative, rest))
    (hhead : ∃ c more, rest = c :: more ∧ (c.isDigit = true ∨ c = '.')) :
    Numeral.read? cs = (readMagnitude? rest).map (.finite negative) := by
  obtain ⟨c, more, rfl, hc⟩ := hhead
  have hlower : c.toLower = c ∧ c ≠ 'i' ∧ c ≠ 'n' := by
    rcases hc with hdigit | rfl
    · exact ⟨toLower_of_isDigit hdigit, ne_of_isDigit hdigit rfl, ne_of_isDigit hdigit rfl⟩
    · exact ⟨by decide, by decide, by decide⟩
  have hword {d : Char} (word : List Char) (hd : c ≠ d) : (c :: more).map Char.toLower ≠ d :: word := by
    intro heq
    rw [List.map_cons, hlower.1] at heq
    exact hd (List.cons.inj heq).1
  have hinfinite : ¬ ((c :: more).map Char.toLower = "inf".toList
      ∨ (c :: more).map Char.toLower = "infinity".toList) :=
    not_or.mpr ⟨hword _ hlower.2.1, hword _ hlower.2.1⟩
  have hnan : ¬ (c :: more).map Char.toLower = "nan".toList := hword _ hlower.2.2
  unfold Numeral.read?
  rw [hsplit]
  dsimp only
  rw [if_neg hinfinite, if_neg hnan]

theorem read?_magnitude {cs : List Char} (h : ∃ c rest, cs = c :: rest ∧ c.isDigit = true) (negative : Bool) :
    Numeral.read? ((signText negative).toList ++ cs) = (readMagnitude? cs).map (.finite negative) := by
  obtain ⟨c, rest, rfl, hc⟩ := h
  exact read?_of_splitSign (splitSign_signText hc rest negative) ⟨c, rest, rfl, Or.inl hc⟩

/-- A magnitude behind a sign denotes its number with that sign. -/
theorem denotes?_of_spells {text : String} {q : ℚ} (h : Spells text.toList q) (negative : Bool) :
    denotes? (signText negative ++ text) = some (signed negative q) := by
  obtain ⟨s, hs, rfl⟩ := h.value
  rw [denotes?, String.toList_append, read?_magnitude h.digit, hs]
  rfl

/-! ### Reading the layouts -/

/-- Digits without a point, and a power of ten. -/
theorem spells_whole {whole tail : List Char} {e : Int} (h : IsDigits whole) (ht : EndsDigits tail)
    (hpoint : tail.head? ≠ some '.') (he : readExponent? tail = some e) :
    Spells (whole ++ tail) (digitsValue 10 whole * 10 ^ e) := by
  have hread := readMagnitude?_whole h ht hpoint
  rw [he] at hread
  exact ⟨h.head tail, _, hread, rfl⟩

/-- Digits around a point, and a power of ten. -/
theorem spells_point {whole fraction tail : List Char} {e : Int} (h : IsDigits whole)
    (hf : ∀ c ∈ fraction, c.isDigit = true) (ht : EndsDigits tail) (he : readExponent? tail = some e) :
    Spells (whole ++ '.' :: (fraction ++ tail)) (digitsValue 10 (whole ++ fraction) * 10 ^ (e - fraction.length)) := by
  have hread := readMagnitude?_point h hf ht
  rw [he] at hread
  exact ⟨h.head _, _, hread, rfl⟩

theorem endsDigits_nil : EndsDigits [] := fun c hc => by cases hc

theorem spells_digits {whole : List Char} (h : IsDigits whole) : Spells whole (digitsValue 10 whole) := by
  have hwhole := spells_whole h endsDigits_nil (by simp) (e := 0) rfl
  simpa using hwhole

theorem spells_fraction {whole : List Char} (h : IsDigits whole) (fraction : List Char)
    (hf : ∀ c ∈ fraction, c.isDigit = true) :
    Spells (whole ++ '.' :: fraction) (digitsValue 10 (whole ++ fraction) * 10 ^ (-(fraction.length : Int))) := by
  have hpoint := spells_point h hf endsDigits_nil (e := 0) rfl
  rw [List.append_nil, zero_sub] at hpoint
  exact hpoint

/-- A decimal with its point in place denotes its digits times the power of ten that the place leaves. -/
theorem spells_positionalText {digits : List Char} (h : IsDigits digits) (place : Int) (mark : String)
    (hm : mark = "" ∨ mark = ".0") :
    Spells (positionalText mark digits place).toList (digitsValue 10 digits * 10 ^ (place - digits.length)) := by
  by_cases hplace : place < digits.length
  · obtain ⟨whole, fraction, k, htext, hwhole, hfraction, hall, hlength⟩ := exists_point h place hplace mark
    have hpoint := spells_fraction hwhole fraction hfraction.all
    rw [hall, digitsValue_zeros h.all, hlength, neg_sub] at hpoint
    rw [htext]
    exact hpoint
  · obtain ⟨k, hk⟩ : ∃ k, k = place.toNat - digits.length := ⟨_, rfl⟩
    have hshift : place - digits.length = (k : Int) := by omega
    have hzeros := h.append (b := List.replicate k '0') fun c hc => isDigit_of_mem_zeros hc
    rw [positionalText_of_le h (Int.not_lt.mp hplace), ← hk, String.toList_append, String.toList_ofList, hshift,
      zpow_natCast]
    rcases hm with rfl | rfl
    · have hwhole := spells_digits hzeros
      rw [digitsValue_append_zeros h.all] at hwhole
      simpa using hwhole
    · have hpoint := spells_fraction hzeros ['0'] (isDigits_digitChars 0).all
      have hvalue : digitsValue 10 (digits ++ List.replicate k '0' ++ ['0']) = digitsValue 10 digits * 10 ^ (k + 1) := by
        rw [List.append_assoc, ← List.replicate_succ', digitsValue_append_zeros h.all]
      have htenth : ((digitsValue 10 digits * 10 ^ (k + 1) : Nat) : ℚ) * 10 ^ (-(['0'].length : Int))
          = digitsValue 10 digits * 10 ^ k := by
        simp [pow_succ, mul_assoc]
      rw [hvalue, htenth] at hpoint
      exact hpoint

/-- A decimal as a number from one to ten and a power of ten. -/
theorem spells_scientificText {digits : List Char} (h : IsDigits digits) (width : Nat) (exponent : Int) :
    Spells (scientificText width digits exponent).toList
      (digitsValue 10 digits * 10 ^ (exponent + 1 - digits.length)) := by
  obtain ⟨c, more, rfl⟩ := List.exists_cons_of_ne_nil h.ne_nil
  have hlead : IsDigits [c] := ⟨List.cons_ne_nil _ _, fun d hd => h.all d (List.mem_append_left more hd)⟩
  have hmore : ∀ d ∈ more, d.isDigit = true := fun d hd => h.all d (List.mem_cons_of_mem c hd)
  obtain ⟨tail, htail⟩ : ∃ tail, tail = 'e' :: (if decide (exponent < 0) then '-' else '+')
      :: paddedDigits width exponent.natAbs := ⟨_, rfl⟩
  have hexponent : readExponent? tail = some exponent := by
    rw [htail, readExponent?_digits (isDigits_paddedDigits _ _), digitsValue_paddedDigits]
    by_cases hneg : exponent < 0
    · rw [if_pos (decide_eq_true hneg), Int.ofNat_natAbs_of_nonpos hneg.le, neg_neg]
    · rw [if_neg (mt of_decide_eq_true hneg), Int.natAbs_of_nonneg (Int.not_lt.mp hneg)]
  have hends : EndsDigits tail := by
    rw [htail]
    exact endsDigits_cons rfl _
  have htext : (scientificText width (c :: more) exponent).toList
      = [c] ++ ((if more.isEmpty then [] else '.' :: more) ++ tail) := by
    simp [scientificText, htail]
  rw [htext]
  cases more with
  | nil =>
      have hwhole := spells_whole hlead hends (by simp [htail]) hexponent
      have hplace : exponent + 1 - (([c] : List Char).length : Int) = exponent := by simp
      rw [hplace]
      exact hwhole
  | cons d rest =>
      have hpoint := spells_point hlead hmore hends hexponent
      have hplace : exponent + 1 - ((c :: d :: rest).length : Int) = exponent - (d :: rest).length := by
        simp only [List.length_cons]
        omega
      rw [hplace]
      exact hpoint

namespace Scaled

/-- Written out in full, a decimal denotes itself. -/
theorem spells_plainText (s : Scaled) : Spells s.plainText.toList s.value := by
  have htext := spells_positionalText (isDigits_digitChars s.coefficient)
    ((digitChars s.coefficient).length + s.exponent) "" (Or.inl rfl)
  rw [digitsValue_digitChars, add_sub_cancel_left] at htext
  exact htext

/-- In the natural layout, whether positional or scientific, a decimal denotes itself. -/
theorem spells_text (s : Scaled) : Spells (s.text Layout.natural).toList s.value := by
  have hdigits := isDigits_digitChars s.coefficient
  unfold text
  dsimp only
  split
  · rename_i hzero
    have hpoint := spells_fraction (isDigits_digitChars 0) ['0'] (isDigits_digitChars 0).all
    rw [show digitsValue 10 (digitChars 0 ++ ['0']) = 0 by decide, Nat.cast_zero, zero_mul] at hpoint
    rw [value, hzero, Nat.cast_zero, zero_mul]
    exact hpoint
  · split
    · have htext := spells_positionalText hdigits ((digitChars s.coefficient).length + s.exponent)
        Layout.natural.wholeMark (Or.inr rfl)
      rw [digitsValue_digitChars, add_sub_cancel_left] at htext
      exact htext
    · have htext := spells_scientificText hdigits Layout.natural.exponentWidth
        ((digitChars s.coefficient).length + s.exponent - 1)
      rw [digitsValue_digitChars, sub_add_cancel, add_sub_cancel_left] at htext
      exact htext

end Scaled

theorem denotes?_intText (i : Int) : denotes? (intText i) = some (i : ℚ) := by
  have hspells : Spells (natText i.natAbs).toList (i.natAbs : ℚ) := by
    have hdigits := spells_digits (isDigits_digitChars i.natAbs)
    rw [digitsValue_digitChars] at hdigits
    rw [natText, String.toList_ofList]
    exact hdigits
  have hsigned (negative : Bool) := denotes?_of_spells hspells negative
  rw [intText]
  split
  · rename_i hneg
    have hvalue : signed true (i.natAbs : ℚ) = i := by
      have habs : (i.natAbs : Int) = -i := by omega
      rw [signed, if_pos rfl, ← Int.cast_natCast, habs, Int.cast_neg, neg_neg]
    rw [← hvalue]
    exact hsigned true
  · rename_i hneg
    have hvalue : signed false (i.natAbs : ℚ) = i := by
      have habs : (i.natAbs : Int) = i := by omega
      rw [signed, if_neg Bool.false_ne_true, ← Int.cast_natCast, habs]
    have htext : signText false ++ natText i.natAbs = natText i.natAbs := String.empty_append
    rw [← hvalue, ← htext]
    exact hsigned false

end PartProgram.Decimal
