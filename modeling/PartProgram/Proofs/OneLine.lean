/-
Texts of one line.

The literal of a value never holds a line break, since a text in quotes has its line breaks
escaped, and neither does a number.  What goes into a line as it stands is a text, so as the
number of a word a value is one line unless it is a text of several.
-/
import PartProgram.Word.LineNumber
import PartProgram.Word.Motion

namespace PartProgram

/-- A text without a line break. -/
def IsOneLine (s : String) : Prop := '\n' ∉ s.toList

instance (s : String) : Decidable (IsOneLine s) := inferInstanceAs (Decidable ('\n' ∉ s.toList))

@[simp]
theorem isOneLine_append {s t : String} : IsOneLine (s ++ t) ↔ IsOneLine s ∧ IsOneLine t := by
  rw [IsOneLine, String.toList_append, List.mem_append, not_or]
  rfl

theorem isOneLine_ofList {cs : List Char} : IsOneLine (String.ofList cs) ↔ '\n' ∉ cs := by
  rw [IsOneLine, String.toList_ofList]

theorem isOneLine_ite {P : Prop} [Decidable P] {s t : String} (hs : IsOneLine s) (ht : IsOneLine t) :
    IsOneLine (if P then s else t) := by
  split
  · exact hs
  · exact ht

theorem isOneLine_intercalate {sep : String} (hsep : IsOneLine sep) {ts : List String} :
    IsOneLine (sep.intercalate ts) ↔ ∀ t ∈ ts, IsOneLine t := by
  induction ts with
  | nil =>
      rw [String.intercalate_nil]
      exact ⟨fun _ t ht => absurd ht List.not_mem_nil, fun _ => by decide⟩
  | cons first rest ih =>
      cases rest with
      | nil => rw [String.intercalate_singleton, List.forall_mem_singleton]
      | cons second more =>
          rw [String.intercalate_cons_cons, isOneLine_append, isOneLine_append, ih, and_iff_left hsep,
            ← List.forall_mem_cons]

/-! ### Numbers -/

/-- The digits of a number in any base up to sixteen. -/
theorem newline_not_mem_toDigits (n : Nat) {base : Nat} (hbase : 1 < base) : '\n' ∉ Nat.toDigits base n := by
  have hdigit (d : Nat) : '\n' ≠ Nat.digitChar d := (Nat.digitChar_ne '\n' rfl).symm
  induction n using Nat.strongRecOn with
  | ind n ih =>
      rw [Nat.toDigits_eq_if hbase]
      by_cases hn : n < base
      · rw [if_pos hn, List.mem_singleton]
        exact hdigit n
      · have hless : n / base < n := Nat.div_lt_self (by omega) hbase
        rw [if_neg hn, List.mem_append, List.mem_singleton, not_or]
        exact ⟨ih _ hless, hdigit _⟩

theorem newline_not_mem_replicate {k : Nat} {c : Char} (hc : c ≠ '\n') : '\n' ∉ List.replicate k c :=
  fun h => hc (List.eq_of_mem_replicate h).symm

namespace Decimal

theorem newline_not_mem_digitChars (n : Nat) : '\n' ∉ digitChars n := newline_not_mem_toDigits n (by decide)

theorem isOneLine_natText (n : Nat) : IsOneLine (natText n) := isOneLine_ofList.mpr (newline_not_mem_digitChars n)

theorem isOneLine_intText (i : Int) : IsOneLine (intText i) :=
  isOneLine_ite (isOneLine_append.mpr ⟨by decide, isOneLine_natText _⟩) (isOneLine_natText _)

theorem isOneLine_signText (negative : Bool) : IsOneLine (signText negative) := by
  cases negative <;> decide

theorem isOneLine_positionalText {mark : String} (hmark : IsOneLine mark) {digits : List Char} (h : '\n' ∉ digits)
    (place : Int) : IsOneLine (positionalText mark digits place) := by
  have hzeros (k : Nat) : '\n' ∉ List.replicate k '0' := newline_not_mem_replicate (by decide)
  unfold positionalText
  split
  · refine isOneLine_ofList.mpr ?_
    simp [h, hzeros]
  · split
    · refine isOneLine_append.mpr ⟨isOneLine_ofList.mpr ?_, hmark⟩
      simp [h, hzeros]
    · have htake : '\n' ∉ digits.take place.toNat := fun hc => h (List.mem_of_mem_take hc)
      have hdrop : '\n' ∉ digits.drop place.toNat := fun hc => h (List.mem_of_mem_drop hc)
      refine isOneLine_ofList.mpr ?_
      simp [htake, hdrop]

theorem newline_not_mem_paddedDigits (width n : Nat) : '\n' ∉ paddedDigits width n := by
  rw [paddedDigits, List.mem_append, not_or]
  exact ⟨newline_not_mem_replicate (by decide), newline_not_mem_digitChars n⟩

theorem isOneLine_scientificText (width : Nat) {digits : List Char} (h : '\n' ∉ digits) (exponent : Int) :
    IsOneLine (scientificText width digits exponent) := by
  have htake : '\n' ∉ digits.take 1 := fun hc => h (List.mem_of_mem_take hc)
  have hdrop : '\n' ∉ digits.drop 1 := fun hc => h (List.mem_of_mem_drop hc)
  have hmore : '\n' ∉ if (digits.drop 1).isEmpty then [] else '.' :: digits.drop 1 := by
    split
    · exact List.not_mem_nil
    · exact List.not_mem_cons_of_ne_of_not_mem (by decide) hdrop
  have hsign : '\n' ≠ if exponent < 0 then '-' else '+' := by
    split <;> decide
  refine isOneLine_ofList.mpr ?_
  simp only [List.mem_append, List.mem_cons, not_or]
  exact ⟨⟨htake, hmore⟩, by decide, hsign, newline_not_mem_paddedDigits _ _⟩

theorem isOneLine_nonFiniteText (x : Float) : IsOneLine (nonFiniteText x) :=
  isOneLine_ite (by decide) (isOneLine_ite (by decide) (by decide))

theorem isOneLine_scaledText (layout : Layout) (hmark : IsOneLine layout.wholeMark) (s : Scaled) :
    IsOneLine (s.text layout) := by
  have hdigits := newline_not_mem_digitChars s.coefficient
  exact isOneLine_ite (isOneLine_append.mpr ⟨by decide, hmark⟩)
    (isOneLine_ite (isOneLine_positionalText hmark hdigits _) (isOneLine_scientificText _ hdigits _))

theorem isOneLine_naturalText (x : Float) : IsOneLine (naturalText x) := by
  unfold naturalText
  split
  · exact isOneLine_append.mpr ⟨isOneLine_signText _, isOneLine_scaledText _ (by decide) _⟩
  · exact isOneLine_nonFiniteText x

theorem isOneLine_plainText (x : Float) : IsOneLine (plainText x) := by
  unfold plainText
  split
  · split
    · exact isOneLine_intText _
    · refine isOneLine_append.mpr ⟨isOneLine_signText _, ?_⟩
      exact isOneLine_positionalText (by decide) (newline_not_mem_digitChars _) _
  · exact isOneLine_nonFiniteText x

end Decimal

/-! ### Quotes -/

namespace Text

theorem newline_not_mem_hexDigits (width n : Nat) : '\n' ∉ hexDigits width n := by
  rw [hexDigits, List.mem_append, not_or]
  exact ⟨newline_not_mem_replicate (by decide), newline_not_mem_toDigits n (by decide)⟩

/-- A line break is escaped, and no escape holds one. -/
theorem newline_not_mem_escapeChar {quote : Char} (hquote : quote ≠ '\n') (c : Char) : '\n' ∉ escapeChar quote c := by
  have hescape {letter : Char} {rest : List Char} (hletter : letter ≠ '\n') (hrest : '\n' ∉ rest) :
      '\n' ∉ '\\' :: letter :: rest :=
    List.not_mem_cons_of_ne_of_not_mem (by decide) (List.not_mem_cons_of_ne_of_not_mem hletter.symm hrest)
  have hletter {letter : Char} (h : letter ≠ '\n') : '\n' ∉ ['\\', letter] := hescape h List.not_mem_nil
  unfold escapeChar
  by_cases hown : c = quote ∨ c = '\\'
  · have hc : c ≠ '\n' := by
      rcases hown with rfl | rfl
      · exact hquote
      · decide
    rw [if_pos hown]
    exact hletter hc
  · by_cases hc : c = '\n'
    · rw [if_neg hown, if_pos hc]
      exact hletter (by decide)
    · rw [if_neg hown, if_neg hc]
      split
      · exact hletter (by decide)
      · split
        · exact hletter (by decide)
        · split
          · exact List.not_mem_cons_of_ne_of_not_mem (Ne.symm hc) List.not_mem_nil
          · split
            · exact hescape (by decide) (newline_not_mem_hexDigits 2 _)
            · split
              · exact hescape (by decide) (newline_not_mem_hexDigits 4 _)
              · exact hescape (by decide) (newline_not_mem_hexDigits 8 _)

theorem quoteFor_ne_newline (cs : List Char) : quoteFor cs ≠ '\n' := by
  unfold quoteFor
  split <;> decide

/-- A text in quotes is one line, whatever the text. -/
theorem isOneLine_quoted (s : String) : IsOneLine (quoted s) := by
  have hquote := (quoteFor_ne_newline s.toList).symm
  have hescaped : '\n' ∉ s.toList.flatMap (escapeChar (quoteFor s.toList)) := by
    intro h
    obtain ⟨c, -, hc⟩ := List.mem_flatMap.mp h
    exact newline_not_mem_escapeChar hquote.symm c hc
  refine isOneLine_ofList.mpr ?_
  simp only [quoteChars, List.cons_append, List.mem_cons, List.mem_append, List.not_mem_nil, or_false, not_or]
  exact ⟨hquote, hescaped, hquote⟩

end Text

/-! ### Values

Inside of a literal texts are in quotes, at any depth, and only at the outside is a text taken
as it stands.  So the recursion is about literals alone, and what is written in a line needs one
case more.
-/

namespace Value

/-- Between brackets a list of one-line texts is one line. -/
theorem isOneLine_bracketed {before after : String} (hbefore : IsOneLine before) (hafter : IsOneLine after)
    {ts : List String} (h : ∀ t ∈ ts, IsOneLine t) : IsOneLine (before ++ ", ".intercalate ts ++ after) := by
  have hts : IsOneLine (", ".intercalate ts) := (isOneLine_intercalate (by decide)).mpr h
  rw [isOneLine_append, isOneLine_append]
  exact ⟨⟨hbefore, hts⟩, hafter⟩

mutual

/-- The literal of a value is one line: texts in it are in quotes. -/
theorem isOneLine_literal : (v : Value) → IsOneLine v.literal
  | null => by decide
  | bool b => by cases b <;> decide
  | int i => Decimal.isOneLine_intText i
  | float x => Decimal.isOneLine_naturalText x
  | text s => Text.isOneLine_quoted s
  | list items => isOneLine_bracketed (by decide) (by decide) (isOneLine_literals items)
  | tuple [] => by decide
  | tuple [item] => by
      show IsOneLine ("(" ++ literal item ++ ",)")
      rw [isOneLine_append, isOneLine_append]
      exact ⟨⟨by decide, isOneLine_literal item⟩, by decide⟩
  | tuple (first :: second :: more) =>
      isOneLine_bracketed (by decide) (by decide) (isOneLine_literals (first :: second :: more))
  | map entries => isOneLine_bracketed (by decide) (by decide) (isOneLine_entryLiterals entries)
  | position x y z => by
      show IsOneLine ("Position(x=" ++ literal x ++ ", y=" ++ literal y ++ ", z=" ++ literal z ++ ")")
      have hx := isOneLine_literal x
      have hy := isOneLine_literal y
      have hz := isOneLine_literal z
      simp only [isOneLine_append, hx, hy, hz]
      decide
  | mode m => by cases m <;> decide

theorem isOneLine_literals : (items : List Value) → ∀ t ∈ literals items, IsOneLine t
  | [] => fun _ ht => absurd ht List.not_mem_nil
  | v :: rest => List.forall_mem_cons.mpr ⟨isOneLine_literal v, isOneLine_literals rest⟩

theorem isOneLine_entryLiterals : (entries : List (Value × Value)) → ∀ t ∈ entryLiterals entries, IsOneLine t
  | [] => fun _ ht => absurd ht List.not_mem_nil
  | (k, v) :: rest => by
      have hentry : IsOneLine (literal k ++ ": " ++ literal v) :=
        isOneLine_append.mpr ⟨isOneLine_append.mpr ⟨isOneLine_literal k, by decide⟩, isOneLine_literal v⟩
      exact List.forall_mem_cons.mpr ⟨hentry, isOneLine_entryLiterals rest⟩

end

/-- The text that a value is, where it is one. -/
def text? : Value → Option String
  | text s => some s
  | _ => none

/-- As a number a value shows in one line, unless it is a text of several. -/
theorem isOneLine_numberText (factor : Nat) (v : Value) :
    IsOneLine (v.scale factor).numberText ↔ ∀ t ∈ v.text?, IsOneLine t := by
  have hno (hv : v.text? = none) (h : IsOneLine (v.scale factor).numberText) :
      IsOneLine (v.scale factor).numberText ↔ ∀ t ∈ v.text?, IsOneLine t := by
    rw [hv]
    exact ⟨fun _ t ht => (by cases ht), fun _ => h⟩
  cases v with
  | null => exact hno rfl (show IsOneLine "None" by decide)
  | bool b => exact hno rfl (show IsOneLine (if b then "1" else "0") by cases b <;> decide)
  | int i => exact hno rfl (Decimal.isOneLine_intText _)
  | float x => exact hno rfl (Decimal.isOneLine_plainText _)
  | text s => exact ⟨fun h t ht => Option.mem_some.mp ht ▸ h, fun h => h s rfl⟩
  | mode m => exact hno rfl (show IsOneLine ("Positioning." ++ m.memberName) by cases m <;> decide)
  | list items => exact hno rfl (isOneLine_literal _)
  | tuple items => exact hno rfl (isOneLine_literal _)
  | map entries => exact hno rfl (isOneLine_literal _)
  | position x y z => exact hno rfl (isOneLine_literal _)

end Value

end PartProgram
