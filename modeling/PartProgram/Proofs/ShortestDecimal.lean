/-
The shortest decimal of a float.

The magnitude of a float is a whole number of steps, and the decimals that read back as the
float are those within half a step of it, or a quarter of a step below where the steps get
smaller.  The search tries the two neighbours of the magnitude on one decimal grid after the
other.  It always finds one: seventeen digits after the first make a grid that is finer than
the steps, because a magnitude is less than `2 ^ 53` steps and `2 ^ 53` is less than `10 ^ 16`
and a bit.

A float that is no whole number has steps of a half or less, and then no whole number is
within half a step of it.  So its shortest decimal is no whole number either: once the zeros
at the end have been moved into the power of ten, that power is negative.
-/
import Mathlib.Algebra.Order.Floor.Semifield
import Mathlib.Data.Nat.Cast.Field
import Mathlib.Data.Rat.Floor
import Mathlib.Tactic.FieldSimp
import Mathlib.Tactic.Linarith
import Mathlib.Tactic.NormNum.Inv
import Mathlib.Tactic.Positivity
import PartProgram.Proofs.Binary64
import PartProgram.Proofs.DecimalValue

namespace PartProgram.Decimal

/-- A power with an exponent of either sign, as a quotient of natural powers. -/
theorem zpow_eq_div {a : ℚ} (ha : a ≠ 0) (e : Int) : a ^ e = a ^ e.toNat / a ^ (-e).toNat := by
  rw [eq_div_iff (pow_ne_zero _ ha), ← zpow_natCast, ← zpow_natCast, ← zpow_add₀ ha]
  congr 1
  omega

namespace Binary

/-- The value without its sign. -/
def magnitude (b : Binary) : ℚ := b.significand * 2 ^ b.exponent

/-- The number that the bits stand for. -/
def value (b : Binary) : ℚ := signed b.negative b.magnitude

/-- A number of quarter steps. -/
def quarters (b : Binary) (n : Nat) : ℚ := n / 4 * 2 ^ b.exponent

/-- The quarter steps up to the lower end of the numbers that round to the float. -/
def lowerEnd (b : Binary) : Nat := 4 * b.significand - (if b.isFirstOfPower then 1 else 2)

/-- The quarter steps up to the upper end. -/
def upperEnd (b : Binary) : Nat := 4 * b.significand + 2

/-- The number is one of those that round to the float; the ends are, if the significand is even. -/
structure Attracts (b : Binary) (v : ℚ) : Prop where
  low : b.quarters b.lowerEnd ≤ v
  high : v ≤ b.quarters b.upperEnd
  odd : b.significand % 2 = 1 → b.quarters b.lowerEnd < v ∧ v < b.quarters b.upperEnd

variable {b : Binary}

/-! ### Magnitudes as quotients

The search computes with natural numbers, and so does the test for being whole.  Both are
compared with the magnitude as a rational number once, here, and only the rational number is
spoken of later.
-/

theorem two_zpow_pos (e : Int) : (0 : ℚ) < 2 ^ e := zpow_pos (by norm_num) e

theorem ten_zpow_pos (e : Int) : (0 : ℚ) < 10 ^ e := zpow_pos (by norm_num) e

theorem ratio_pos (b : Binary) : 0 < b.ratio.2 := Nat.two_pow_pos _

theorem magnitude_eq (b : Binary) : b.magnitude = b.ratio.1 / b.ratio.2 := by
  rw [magnitude, zpow_eq_div (by norm_num), ratio]
  push_cast
  ring

/-- Whole magnitudes are those whose numerator can be divided. -/
theorem isWhole_iff : b.isWhole = true ↔ ∃ i : Int, b.magnitude = i := by
  have hpos : (0 : ℚ) < b.ratio.2 := by exact_mod_cast b.ratio_pos
  rw [isWhole, decide_eq_true_eq, magnitude_eq]
  constructor
  · intro h
    obtain ⟨k, hk⟩ := Nat.dvd_of_mod_eq_zero h
    refine ⟨k, ?_⟩
    rw [hk, div_eq_iff hpos.ne']
    push_cast
    ring
  · rintro ⟨i, hi⟩
    rw [div_eq_iff hpos.ne'] at hi
    have hdvd : (b.ratio.2 : Int) ∣ b.ratio.1 := ⟨i, by exact_mod_cast hi.trans (mul_comm _ _)⟩
    exact Nat.mod_eq_zero_of_dvd (by exact_mod_cast hdvd)

/-- The whole number that a float is. -/
theorem value_of_toInt? {i : Int} (h : b.toInt? = some i) : b.value = i := by
  unfold toInt? at h
  split at h
  · rename_i hwhole
    obtain rfl := Option.some.inj h
    have hpos : (0 : ℚ) < b.ratio.2 := by exact_mod_cast b.ratio_pos
    have hmod : b.ratio.1 % b.ratio.2 = 0 := of_decide_eq_true hwhole
    have hquotient : ((b.ratio.1 / b.ratio.2 : Nat) : ℚ) = b.magnitude := by
      rw [magnitude_eq, Nat.cast_div (Nat.dvd_of_mod_eq_zero hmod) hpos.ne']
    rw [value, ← hquotient]
    unfold signed truncate
    cases b.negative with
    | true => simp only [if_true, Int.cast_neg, Int.cast_natCast]
    | false => simp only [Bool.false_eq_true, if_false, Int.cast_natCast]
  · cases h

theorem exists_value_eq_iff : (∃ i : Int, b.value = i) ↔ b.isWhole = true := by
  rw [isWhole_iff, value]
  unfold signed
  cases b.negative with
  | true =>
      constructor
      · rintro ⟨i, hi⟩
        exact ⟨-i, by rw [Int.cast_neg, ← hi, if_pos rfl, neg_neg]⟩
      · rintro ⟨i, hi⟩
        exact ⟨-i, by rw [Int.cast_neg, ← hi, if_pos rfl]⟩
  | false => simp

/-! ### Decimal grids

A grid is the multiples of a power of ten, and it is chosen by how many digits a multiple next
to the magnitude has.  For that one has to know the place of the first digit, which is counted
on the quotient of two natural numbers.
-/

theorem floorAt_eq (b : Binary) (p : Int) : b.floorAt p = ⌊b.magnitude / 10 ^ p⌋₊ := by
  rw [floorAt, ← Nat.floor_div_eq_div (K := ℚ), magnitude_eq, zpow_eq_div (a := 10) (by norm_num)]
  congr 1
  push_cast
  field_simp

theorem magnitude_nonneg (b : Binary) : 0 ≤ b.magnitude :=
  mul_nonneg (Nat.cast_nonneg _) (two_zpow_pos _).le

/-- The magnitude is between its neighbours on a grid. -/
theorem floorAt_bounds (b : Binary) (p : Int) :
    b.floorAt p * 10 ^ p ≤ b.magnitude ∧ b.magnitude < (b.floorAt p + 1) * 10 ^ p := by
  have hgrid := ten_zpow_pos p
  rw [floorAt_eq, ← le_div_iff₀ hgrid, ← div_lt_iff₀ hgrid]
  exact ⟨Nat.floor_le (div_nonneg b.magnitude_nonneg hgrid.le), Nat.lt_floor_add_one _⟩

/-- The count of tens is the least that lifts a quotient to one. -/
theorem liftCount_spec {d fuel n : Nat} (hlow : n < d) (hfuel : d ≤ n * 10 ^ fuel) :
    ∃ k, liftCount d fuel n = k + 1 ∧ n * 10 ^ k < d ∧ d ≤ n * 10 ^ (k + 1) := by
  induction fuel generalizing n with
  | zero => omega
  | succ fuel ih =>
      have hnot : ¬ d ≤ n := Nat.not_le.mpr hlow
      rw [liftCount, if_neg hnot]
      by_cases hnext : d ≤ n * 10
      · refine ⟨0, ?_, by simpa using hlow, by simpa using hnext⟩
        cases fuel with
        | zero => rfl
        | succ fuel => rw [liftCount, if_pos hnext]
      · have hmore : d ≤ n * 10 * 10 ^ fuel := by rwa [Nat.pow_succ', ← Nat.mul_assoc] at hfuel
        obtain ⟨k, hk, hbelow, habove⟩ := ih (Nat.not_le.mp hnext) hmore
        refine ⟨k + 1, by rw [hk], ?_, ?_⟩
        · rwa [Nat.pow_succ', ← Nat.mul_assoc]
        · rwa [Nat.pow_succ', ← Nat.mul_assoc]

theorem digitCount_spec {n : Nat} (h : 0 < n) :
    10 ^ ((digitChars n).length - 1) ≤ n ∧ n < 10 ^ (digitChars n).length := by
  have hcount {k : Nat} (hk : 0 < k) : (digitChars n).length ≤ k ↔ n < 10 ^ k :=
    Nat.length_toDigits_le_iff (by decide) hk
  have hpos : 0 < (digitChars n).length := Nat.length_toDigits_pos
  refine ⟨?_, (hcount hpos).mp (Nat.le_refl _)⟩
  by_cases hone : (digitChars n).length = 1
  · rw [hone]
    exact h
  · have hless : ¬ n < 10 ^ ((digitChars n).length - 1) := by
      rw [← hcount (by omega)]
      omega
    exact Nat.not_lt.mp hless

theorem pointPlace_eq (b : Binary) : b.pointPlace = if b.ratio.2 ≤ b.ratio.1
    then ((digitChars (b.ratio.1 / b.ratio.2)).length : Int) else 1 - (liftCount b.ratio.2 400 b.ratio.1 : Int) := rfl

/-- **The place of the point.**  A magnitude has its first digit right before that many places. -/
theorem pointPlace_spec (hpos : 0 < b.significand) (he : -1074 ≤ b.exponent) :
    10 ^ (b.pointPlace - 1) ≤ b.magnitude ∧ b.magnitude < 10 ^ b.pointPlace := by
  have hd : (0 : ℚ) < b.ratio.2 := by exact_mod_cast b.ratio_pos
  rw [magnitude_eq, le_div_iff₀ hd, div_lt_iff₀ hd, pointPlace_eq]
  by_cases hlarge : b.ratio.2 ≤ b.ratio.1
  · obtain ⟨q, hq⟩ : ∃ q, q = b.ratio.1 / b.ratio.2 := ⟨_, rfl⟩
    obtain ⟨hlow, hhigh⟩ := digitCount_spec (Nat.div_pos hlarge b.ratio_pos)
    rw [if_pos hlarge]
    rw [← hq] at hlow hhigh ⊢
    have hcount : 0 < (digitChars q).length := Nat.length_toDigits_pos
    have hbelow : 10 ^ ((digitChars q).length - 1) * b.ratio.2 ≤ b.ratio.1 :=
      Nat.le_trans (Nat.mul_le_mul_right _ hlow) (hq ▸ Nat.div_mul_le_self _ _)
    have habove : b.ratio.1 < 10 ^ (digitChars q).length * b.ratio.2 :=
      (Nat.div_lt_iff_lt_mul b.ratio_pos).mp (hq ▸ hhigh)
    rw [show ((digitChars q).length : Int) - 1 = ((digitChars q).length - 1 : Nat) by omega, zpow_natCast, zpow_natCast]
    exact ⟨by exact_mod_cast hbelow, by exact_mod_cast habove⟩
  · have hfits : b.ratio.2 ≤ b.ratio.1 * 10 ^ 400 := by
      calc b.ratio.2 ≤ 2 ^ 1074 := Nat.pow_le_pow_right Nat.two_pos (by omega)
        _ ≤ 10 ^ 400 := by decide +kernel
        _ ≤ b.ratio.1 * 10 ^ 400 := Nat.le_mul_of_pos_left _ (Nat.mul_pos hpos (Nat.two_pow_pos _))
    obtain ⟨k, hk, hbelow, habove⟩ := liftCount_spec (Nat.not_le.mp hlarge) hfits
    rw [if_neg hlarge, hk]
    rw [show 1 - ((k + 1 : Nat) : Int) - 1 = -((k + 1 : Nat) : Int) by omega,
      show 1 - ((k + 1 : Nat) : Int) = -(k : Int) by omega, zpow_neg, zpow_neg, zpow_natCast, zpow_natCast,
      inv_mul_le_iff₀ (by positivity), lt_inv_mul_iff₀ (by positivity)]
    exact ⟨by exact_mod_cast (Nat.mul_comm _ _ ▸ habove), by exact_mod_cast (Nat.mul_comm _ _ ▸ hbelow)⟩

/-! ### The numbers that round to a float -/

/-- Quarter steps and decimals are compared as natural numbers, in a common scale. -/
theorem exists_scale (b : Binary) (s : Scaled) : ∃ D : ℚ, 0 < D
    ∧ (∀ n : Nat, b.quarters n * D = (n * (2 ^ b.exponent.toNat * 10 ^ (-s.exponent).toNat) : Nat))
    ∧ s.value * D = (4 * s.coefficient * 10 ^ s.exponent.toNat * 2 ^ (-b.exponent).toNat : Nat) := by
  refine ⟨4 * 2 ^ (-b.exponent).toNat * 10 ^ (-s.exponent).toNat, by positivity, ?_, ?_⟩
  · intro n
    rw [quarters, zpow_eq_div (by norm_num)]
    push_cast
    field_simp
  · rw [Scaled.value, zpow_eq_div (by norm_num)]
    push_cast
    field_simp

/-- The float owns a decimal just when it attracts the number that the decimal is. -/
theorem owns_iff {s : Scaled} : b.owns s = true ↔ b.Attracts s.value := by
  obtain ⟨D, hD, hquarters, hvalue⟩ := exists_scale b s
  have hle (n : Nat) : b.quarters n ≤ s.value ↔ n * (2 ^ b.exponent.toNat * 10 ^ (-s.exponent).toNat)
      ≤ 4 * s.coefficient * 10 ^ s.exponent.toNat * 2 ^ (-b.exponent).toNat := by
    rw [← mul_le_mul_iff_left₀ hD, hquarters, hvalue, Nat.cast_le]
  have hge (n : Nat) : s.value ≤ b.quarters n ↔ 4 * s.coefficient * 10 ^ s.exponent.toNat * 2 ^ (-b.exponent).toNat
      ≤ n * (2 ^ b.exponent.toNat * 10 ^ (-s.exponent).toNat) := by
    rw [← mul_le_mul_iff_left₀ hD, hquarters, hvalue, Nat.cast_le]
  have hlt (n : Nat) := not_congr (hge n)
  have hgt (n : Nat) := not_congr (hle n)
  simp only [not_le] at hlt hgt
  unfold owns
  dsimp only
  split
  · rename_i heven
    rw [Bool.and_eq_true, decide_eq_true_eq, decide_eq_true_eq]
    refine ⟨fun h => ⟨(hle _).mpr h.1, (hge _).mpr h.2, fun hodd => absurd hodd (by omega)⟩, ?_⟩
    exact fun h => ⟨(hle _).mp h.low, (hge _).mp h.high⟩
  · rename_i hodd
    rw [Bool.and_eq_true, decide_eq_true_eq, decide_eq_true_eq]
    constructor
    · intro h
      have hbetween := And.intro ((hlt _).mpr h.1) ((hgt _).mpr h.2)
      exact ⟨hbetween.1.le, hbetween.2.le, fun _ => hbetween⟩
    · intro h
      have hbetween := h.odd (by omega)
      exact ⟨(hlt _).mp hbetween.1, (hgt _).mp hbetween.2⟩

/-- What is strictly between the ends is attracted, whatever the significand. -/
theorem attracts_of_between {v : ℚ} (hlow : b.quarters b.lowerEnd < v) (hhigh : v < b.quarters b.upperEnd) :
    b.Attracts v := ⟨hlow.le, hhigh.le, fun _ => ⟨hlow, hhigh⟩⟩

/-! ### Seventeen digits

A magnitude of at most `2 ^ 52` steps is on a grid finer than half a step, and then the
neighbour above it is near enough.  The first float of a power of two is among these, and so
above them both ends are half a step away.  There the neighbours are less than a step apart, and
one of them is within half a step.
-/

theorem quarters_upperEnd (b : Binary) : b.quarters b.upperEnd = b.magnitude + 2 ^ b.exponent / 2 := by
  rw [quarters, upperEnd, magnitude]
  push_cast
  ring

/-- The magnitude itself is between the ends. -/
theorem magnitude_between (b : Binary) : b.quarters b.lowerEnd ≤ b.magnitude ∧ b.magnitude ≤ b.quarters b.upperEnd := by
  have hstep := two_zpow_pos b.exponent
  constructor
  · have hle : (b.lowerEnd : ℚ) ≤ 4 * b.significand := by exact_mod_cast Nat.sub_le _ _
    rw [quarters, magnitude]
    exact mul_le_mul_of_nonneg_right (by linarith) hstep.le
  · rw [quarters_upperEnd]
    linarith

theorem quarters_lowerEnd_lt (hpos : 0 < b.significand) : b.quarters b.lowerEnd < b.magnitude := by
  have hless : b.lowerEnd < 4 * b.significand := by
    unfold lowerEnd
    split <;> omega
  have hcast : (b.lowerEnd : ℚ) < 4 * b.significand := by exact_mod_cast hless
  rw [quarters, magnitude]
  exact mul_lt_mul_of_pos_right (by linarith) (two_zpow_pos _)

/-- The lower end is as far away as the upper one, unless the float is the first of its power of two. -/
theorem quarters_lowerEnd (hpos : 0 < b.significand) (hne : b.significand ≠ 2 ^ 52) :
    b.quarters b.lowerEnd = b.magnitude - 2 ^ b.exponent / 2 := by
  have hfirst : b.isFirstOfPower = false := by simp [isFirstOfPower, hne]
  have hends : (b.lowerEnd : ℚ) = 4 * b.significand - 2 := by
    rw [lowerEnd, hfirst, if_neg Bool.false_ne_true, Nat.cast_sub (by omega)]
    push_cast
    ring
  rw [quarters, hends, magnitude]
  ring

/-- On a grid that is fine enough, one of the neighbours of a magnitude rounds to the float. -/
theorem owns_neighbour {p : Int} (hpos : 0 < b.significand) (hbits : b.significand < 2 ^ 53)
    (hp : 10 ^ p * 10 ^ 16 ≤ b.magnitude) : b.owns ⟨b.floorAt p, p⟩ = true ∨ b.owns ⟨b.floorAt p + 1, p⟩ = true := by
  obtain ⟨hfloor, hceil⟩ := floorAt_bounds b p
  have hgrid := ten_zpow_pos p
  have hstep := two_zpow_pos b.exponent
  have hbelow : (⟨b.floorAt p, p⟩ : Scaled).value = b.floorAt p * 10 ^ p := rfl
  have habove : (⟨b.floorAt p + 1, p⟩ : Scaled).value = (b.floorAt p + 1) * 10 ^ p := by
    rw [Scaled.value, Nat.cast_add, Nat.cast_one]
  have hupper := quarters_upperEnd b
  by_cases hfew : b.significand ≤ 2 ^ 52
  · -- Half a step is wider than the grid, so the neighbour from above is near enough.
    have hhalf : (10 : ℚ) ^ p < 2 ^ b.exponent / 2 := by
      have hsteps : b.magnitude ≤ 2 ^ 52 * 2 ^ b.exponent :=
        mul_le_mul_of_nonneg_right (by exact_mod_cast hfew) hstep.le
      linarith
    right
    refine owns_iff.mpr (attracts_of_between ?_ ?_)
    · rw [habove]
      exact (quarters_lowerEnd_lt hpos).trans hceil
    · rw [habove, hupper]
      linarith
  · -- The ends are half a step away on both sides, and the neighbours are less than a step apart.
    have hlower := quarters_lowerEnd hpos (by omega)
    have hwhole : (10 : ℚ) ^ p < 2 ^ b.exponent := by
      have hsteps : b.magnitude ≤ 2 ^ 53 * 2 ^ b.exponent :=
        mul_le_mul_of_nonneg_right (by exact_mod_cast hbits.le) hstep.le
      linarith
    by_cases hnear : b.magnitude - 2 ^ b.exponent / 2 < b.floorAt p * 10 ^ p
    · left
      refine owns_iff.mpr (attracts_of_between ?_ ?_)
      · rw [hbelow, hlower]
        exact hnear
      · rw [hbelow, hupper]
        linarith
    · right
      refine owns_iff.mpr (attracts_of_between ?_ ?_)
      · rw [habove, hlower]
        linarith
      · rw [habove, hupper]
        linarith

/-! ### The search -/

theorem withDigits?_spec {n : Nat} {s : Scaled} (h : b.withDigits? n = some s) :
    b.owns s = true ∧ s.coefficient ≤ b.floorAt (b.pointPlace - n) + 1 := by
  unfold withDigits? at h
  dsimp only at h
  split at h
  · rename_i hbelow habove
    obtain rfl := Option.some.inj h
    split
    · exact ⟨habove, Nat.le_refl _⟩
    · exact ⟨hbelow, Nat.le_succ _⟩
  · rename_i hbelow _
    obtain rfl := Option.some.inj h
    exact ⟨hbelow, Nat.le_succ _⟩
  · rename_i _ habove
    obtain rfl := Option.some.inj h
    exact ⟨habove, Nat.le_refl _⟩
  · cases h

theorem exists_withDigits? {n : Nat} (h : b.owns ⟨b.floorAt (b.pointPlace - n), b.pointPlace - n⟩ = true
    ∨ b.owns ⟨b.floorAt (b.pointPlace - n) + 1, b.pointPlace - n⟩ = true) : ∃ s, b.withDigits? n = some s := by
  unfold withDigits?
  dsimp only
  split
  · exact ⟨_, rfl⟩
  · exact ⟨_, rfl⟩
  · exact ⟨_, rfl⟩
  · rename_i hbelow habove
    rw [hbelow, habove] at h
    simp at h

/-- The neighbour from below on a grid has no more digits than the grid. -/
theorem floorAt_lt (hpos : 0 < b.significand) (he : -1074 ≤ b.exponent) (n : Nat) :
    b.floorAt (b.pointPlace - n) < 10 ^ n := by
  have hgrid := ten_zpow_pos (b.pointPlace - n)
  have hsplit : (10 : ℚ) ^ b.pointPlace = 10 ^ n * 10 ^ (b.pointPlace - n) := by
    rw [← zpow_natCast, ← zpow_add₀ (by norm_num)]
    congr 1
    omega
  have hless := (floorAt_bounds b (b.pointPlace - n)).1.trans_lt (pointPlace_spec hpos he).2
  rw [hsplit, mul_lt_mul_iff_left₀ hgrid] at hless
  exact_mod_cast hless

/-- **Seventeen digits always do.**  The shortest decimal is one that rounds to the float, its zeros at the end moved
into the power of ten. -/
theorem exists_shortest (hpos : 0 < b.significand) (hbits : b.significand < 2 ^ 53) (he : -1074 ≤ b.exponent) :
    ∃ s : Scaled, b.owns s = true ∧ s.coefficient ≤ 10 ^ 17 ∧ b.shortest = s.trim 17 := by
  have hfine : (10 : ℚ) ^ (b.pointPlace - (17 : Nat)) * 10 ^ 16 ≤ b.magnitude := by
    have hsplit : (10 : ℚ) ^ (b.pointPlace - (17 : Nat)) * 10 ^ 16 = 10 ^ (b.pointPlace - 1) := by
      rw [← zpow_natCast, ← zpow_add₀ (by norm_num)]
      congr 1
      omega
    rw [hsplit]
    exact (pointPlace_spec hpos he).1
  obtain ⟨last, hlast⟩ := exists_withDigits? (owns_neighbour hpos hbits hfine)
  have hfound : ((List.range 17).findSome? fun i => b.withDigits? (i + 1)).isSome = true := by
    rw [List.findSome?_isSome_iff]
    exact ⟨16, by decide, by rw [hlast]; rfl⟩
  obtain ⟨s, hs⟩ := Option.isSome_iff_exists.mp hfound
  obtain ⟨i, hi, hdigits⟩ := List.exists_of_findSome?_eq_some hs
  obtain ⟨howns, hcoefficient⟩ := withDigits?_spec hdigits
  refine ⟨s, howns, ?_, ?_⟩
  · have hless := floorAt_lt hpos he (i + 1)
    have hle : 10 ^ (i + 1) ≤ 10 ^ 17 := Nat.pow_le_pow_right (by decide) (by have := List.mem_range.mp hi; omega)
    omega
  · unfold shortest
    rw [if_neg (by omega), hs, Option.getD_some]

end Binary

/-! ### Zeros at the end

Zeros at the end are moved into the power of ten, which changes neither the number nor whether
it rounds to the float.
-/

namespace Scaled

theorem value_trim (fuel : Nat) (s : Scaled) : (s.trim fuel).value = s.value := by
  induction fuel generalizing s with
  | zero => rfl
  | succ fuel ih =>
      rw [trim]
      split
      · rename_i h
        have htens : (s.coefficient : ℚ) = (s.coefficient / 10 : Nat) * 10 := by
          have hnat : s.coefficient = s.coefficient / 10 * 10 := by omega
          exact_mod_cast hnat
        rw [ih, value, value, htens, zpow_add₀ (by norm_num), zpow_one]
        ring
      · rfl

/-- Where there is fuel for all the zeros, no zero is left. -/
theorem trim_mod_ten {fuel : Nat} {s : Scaled} (h : s.coefficient ≤ 10 ^ fuel) :
    (s.trim fuel).coefficient % 10 ≠ 0 ∨ (s.trim fuel).coefficient = 0 := by
  induction fuel generalizing s with
  | zero =>
      rw [trim]
      have hone : s.coefficient ≤ 1 := h
      omega
  | succ fuel ih =>
      rw [trim]
      split
      · refine ih ?_
        have hpow : 10 ^ (fuel + 1) = 10 ^ fuel * 10 := Nat.pow_succ ..
        show s.coefficient / 10 ≤ 10 ^ fuel
        omega
      · omega

end Scaled

namespace Binary

variable {b : Binary}

/-- The shortest decimal is one of the numbers that round to the float. -/
theorem attracts_shortest (hpos : 0 < b.significand) (hbits : b.significand < 2 ^ 53) (he : -1074 ≤ b.exponent) :
    b.Attracts b.shortest.value := by
  obtain ⟨s, howns, -, hshortest⟩ := exists_shortest hpos hbits he
  rw [hshortest, Scaled.value_trim]
  exact owns_iff.mp howns

/-- **What the shortest decimal is**: a number that rounds to the float, without a zero at its end. -/
theorem shortest_spec (hpos : 0 < b.significand) (hbits : b.significand < 2 ^ 53) (he : -1074 ≤ b.exponent) :
    b.quarters b.lowerEnd ≤ b.shortest.value ∧ b.shortest.value ≤ b.quarters b.upperEnd
      ∧ b.shortest.coefficient % 10 ≠ 0 := by
  obtain ⟨hlow, hhigh, -⟩ := attracts_shortest hpos hbits he
  refine ⟨hlow, hhigh, ?_⟩
  obtain ⟨s, -, hcoefficient, hshortest⟩ := exists_shortest hpos hbits he
  rw [hshortest] at hlow ⊢
  rw [Scaled.value_trim] at hlow
  refine (Scaled.trim_mod_ten hcoefficient).resolve_right ?_
  intro hzero
  have hvalue : s.value = 0 := by
    rw [← Scaled.value_trim 17 s, Scaled.value, hzero, Nat.cast_zero, zero_mul]
  have hstart : 0 < b.quarters b.lowerEnd := by
    have hend : 0 < b.lowerEnd := by
      unfold lowerEnd
      split <;> omega
    exact mul_pos (div_pos (by exact_mod_cast hend) (by norm_num)) (two_zpow_pos _)
  linarith

/-! ### Floats that are no whole numbers -/

theorem not_isWhole_iff : b.isWhole = false ↔ ∀ i : Int, b.magnitude ≠ i := by
  rw [← Bool.not_eq_true, isWhole_iff, not_exists]

theorem significand_pos (hwhole : b.isWhole = false) : 0 < b.significand := by
  refine Nat.pos_of_ne_zero fun hzero => not_isWhole_iff.mp hwhole 0 ?_
  rw [magnitude, hzero, Nat.cast_zero, zero_mul, Int.cast_zero]

/-- Their steps are less than one. -/
theorem exponent_neg (hwhole : b.isWhole = false) : b.exponent < 0 := by
  refine Int.not_le.mp fun hnonneg => not_isWhole_iff.mp hwhole (b.significand * 2 ^ b.exponent.toNat) ?_
  rw [magnitude, ← Int.toNat_of_nonneg hnonneg, zpow_natCast]
  push_cast
  rfl

/-- Counted in quarter steps of a half or less, a whole number is a multiple of four, and no multiple of four but the
magnitude is at most two away from it. -/
theorem magnitude_of_between (he : b.exponent < 0) {n : Nat} (hlow : b.quarters b.lowerEnd ≤ n)
    (hhigh : n ≤ b.quarters b.upperEnd) : b.magnitude = n := by
  obtain ⟨steps, hsteps⟩ : ∃ steps : Nat, steps = 2 ^ (-b.exponent).toNat := ⟨_, rfl⟩
  have hpos : (0 : ℚ) < steps := by
    rw [hsteps]
    exact_mod_cast Nat.two_pow_pos _
  have hstep : (2 : ℚ) ^ b.exponent = (steps : ℚ)⁻¹ := by
    rw [zpow_eq_div (by norm_num), Int.toNat_of_nonpos he.le, pow_zero, one_div, hsteps]
    push_cast
    rfl
  have hlowNat : b.lowerEnd ≤ 4 * (n * steps) := by
    rw [quarters, hstep, ← div_eq_mul_inv, div_div, div_le_iff₀ (by positivity)] at hlow
    have hle : (b.lowerEnd : ℚ) ≤ 4 * (n * steps) := by linarith
    exact_mod_cast hle
  have hhighNat : 4 * (n * steps) ≤ b.upperEnd := by
    rw [quarters, hstep, ← div_eq_mul_inv, div_div, le_div_iff₀ (by positivity)] at hhigh
    have hle : 4 * (n * steps) ≤ (b.upperEnd : ℚ) := by linarith
    exact_mod_cast hle
  have hnear : 4 * b.significand ≤ b.lowerEnd + 2 := by
    unfold lowerEnd
    split <;> omega
  have hequal : n * steps = b.significand := by
    unfold upperEnd at hhighNat
    omega
  rw [magnitude, hstep, ← hequal, Nat.cast_mul, mul_assoc, mul_inv_cancel₀ hpos.ne', mul_one]

/-- A float that is no whole number has no whole number among the decimals that round to it. -/
theorem shortest_exponent_neg (hbits : b.significand < 2 ^ 53) (he : -1074 ≤ b.exponent) (hwhole : b.isWhole = false) :
    b.shortest.exponent < 0 := by
  refine Int.not_le.mp fun hnonneg => ?_
  obtain ⟨n, hn⟩ : ∃ n : Nat, b.shortest.value = n := by
    refine ⟨b.shortest.coefficient * 10 ^ b.shortest.exponent.toNat, ?_⟩
    rw [Scaled.value, ← Int.toNat_of_nonneg hnonneg, zpow_natCast]
    push_cast
    rfl
  obtain ⟨hlow, hhigh, -⟩ := shortest_spec (significand_pos hwhole) hbits he
  rw [hn] at hlow hhigh
  refine not_isWhole_iff.mp hwhole n ?_
  rw [magnitude_of_between (exponent_neg hwhole) hlow hhigh, Int.cast_natCast]

end Binary

end PartProgram.Decimal
