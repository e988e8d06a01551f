/-
What can be written.

The limit of digits is one number, and no lemma looks at its size but the first: a limit leaves
room for 640 digits.  An integer that fits a float has 309 at most, and a unit multiplies by a
thousand at most, so whatever the strict policy lets through as a number can be written, in every
unit and under every limit.  Without a limit everything can.
-/
import PartProgram.Value.Finite
import PartProgram.Word.Motion

namespace PartProgram

namespace LengthUnit

/-- The factors that units have. -/
theorem factor_mem (unit : String) : factor unit ∈ [1, 10, 100, 1000] := by
  have hlookup : ∀ table : List (String × Nat), (∀ entry ∈ table, entry.2 ∈ [1, 10, 100, 1000]) →
      (table.lookup unit).getD 1 ∈ [1, 10, 100, 1000] := by
    intro table h
    induction table with
    | nil => exact List.mem_cons_self
    | cons entry rest ih =>
        rw [List.lookup_cons]
        split
        · exact h entry List.mem_cons_self
        · exact ih fun e he => h e (List.mem_cons_of_mem entry he)
  exact hlookup _ (by decide)

end LengthUnit

variable [DigitLimit]

/-- Under every limit there is room for 640 digits. -/
theorem Decimal.isWritten_of_lt {i : Int} (h : i.natAbs < 10 ^ 640) : isWritten i = true := by
  unfold isWritten allows
  cases hmost : DigitLimit.most with
  | none => rfl
  | some most =>
      have hroom : 640 ≤ most := DigitLimit.le_most most hmost
      have hlength : (digitChars i.natAbs).length ≤ 640 := (Nat.length_toDigits_le_iff (by decide) (by decide)).mpr h
      exact decide_eq_true (Nat.le_trans hlength hroom)

/-- An integer in the range of floats can be written in every unit. -/
theorem Decimal.isWritten_mul {i : Int} {factor : Nat} (hi : fitsFloat i = true) (hfactor : factor ≤ 1000) :
    isWritten (i * factor) = true := by
  have hscaled : (i * factor).natAbs ≤ i.natAbs * 1000 := by
    rw [Int.natAbs_mul, Int.natAbs_natCast]
    exact Nat.mul_le_mul_left _ hfactor
  have hroom {bound : Nat} (h : i.natAbs < bound) (hbound : bound * 1000 < 10 ^ 640) : isWritten (i * factor) = true :=
    isWritten_of_lt (calc
      (i * factor).natAbs ≤ i.natAbs * 1000 := hscaled
      _ < bound * 1000 := Nat.mul_lt_mul_of_pos_right h (by decide)
      _ < 10 ^ 640 := hbound)
  exact hroom (of_decide_eq_true hi) (by decide +kernel)

/-- Without a limit every integer can be written. -/
theorem Decimal.isWritten_of_unlimited (h : DigitLimit.most = none) (i : Int) : isWritten i = true := by
  rw [isWritten, allows, h]
  rfl

namespace Value

mutual

/-- Without a limit every value can be written. -/
theorem isWritten_of_unlimited (h : DigitLimit.most = none) : ∀ v : Value, v.isWritten = true
  | int i => Decimal.isWritten_of_unlimited h i
  | list items => areWritten_of_unlimited h items
  | tuple items => areWritten_of_unlimited h items
  | map entries => entriesAreWritten_of_unlimited h entries
  | position x y z => by
      rw [isWritten, isWritten_of_unlimited h x, isWritten_of_unlimited h y, isWritten_of_unlimited h z]
      rfl
  | null | bool _ | float _ | text _ | mode _ => rfl

theorem areWritten_of_unlimited (h : DigitLimit.most = none) : ∀ items : List Value, areWritten items = true
  | [] => rfl
  | v :: rest => by
      rw [areWritten, isWritten_of_unlimited h v, areWritten_of_unlimited h rest]
      rfl

theorem entriesAreWritten_of_unlimited (h : DigitLimit.most = none) :
    ∀ entries : List (Value × Value), entriesAreWritten entries = true
  | [] => rfl
  | (k, v) :: rest => by
      rw [entriesAreWritten, isWritten_of_unlimited h k, isWritten_of_unlimited h v,
        entriesAreWritten_of_unlimited h rest]
      rfl

end

theorem checkWritten_eq_ok {v : Value} : v.checkWritten = .ok () ↔ v.isWritten = true := by
  unfold checkWritten
  cases v.isWritten <;> simp

/-- A finite number can be written in every unit. -/
theorem isWritten_scale_of_finite {v : Value} (hv : v.numberFault? = none) (unit : String) :
    (v.scale (LengthUnit.factor unit)).isWritten = true := by
  have hfactor : LengthUnit.factor unit ≤ 1000 := by
    have hmem := LengthUnit.factor_mem unit
    simp only [List.mem_cons, List.not_mem_nil, or_false] at hmem
    omega
  cases v with
  | int i =>
      cases hfits : Decimal.fitsFloat i with
      | true => exact Decimal.isWritten_mul hfits hfactor
      | false =>
          rw [numberFault?, hfits] at hv
          cases hv
  | float x => rfl
  | _ => cases hv

/-- A finite number can be written. -/
theorem isWritten_of_finite {v : Value} (hv : v.numberFault? = none) : v.isWritten = true := by
  have h := isWritten_scale_of_finite hv "mm"
  cases v with
  | int i =>
      rw [show (int i).scale (LengthUnit.factor "mm") = int (i * 1) from rfl, Int.mul_one] at h
      exact h
  | float x => rfl
  | _ => cases hv

end Value

end PartProgram
