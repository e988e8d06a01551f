/-
Rounding to the nearest float.

The arithmetic of floats keeps of an exact result a whole significand, a round bit and a
sticky bit.  Together they stand for the result well enough to round it: the round bit is a
half, and the sticky bit says whether anything less than a half is left.  Shifting the
significand to the right keeps this, so the number that comes out after the last bit is
rounded is the nearest one that the format has, and the even one where two are as near.

A float attracts the numbers that round to it: half a step to either side, a quarter of a step
below the first float of a power of two, and the ends themselves only if its significand is
even.  Every number is attracted by at most one float, because two neighbours meet at a point
that belongs to the even one of them.
-/
import PartProgram.Proofs.ShortestDecimal

namespace PartProgram.Rounding

open Float.Model Float.Model.UnpackedFloat

/-! ### What the residual bits stand for -/

/-- A significand with its residual bits stands for a number: the round bit is a half, and the sticky bit says
whether anything less than a half is left. -/
def StandsFor (em : ExtendedMantissa) (x : ℚ) : Prop :=
  ∃ rest : ℚ, 0 ≤ rest ∧ rest < 1 / 2 ∧ (em.stickyBit = true ↔ rest ≠ 0)
    ∧ x = em.mantissa + (if em.roundBit then 1 / 2 else 0) + rest

/-- A whole number that is nearest to a number, and the even one where two are. -/
structure IsNearest (r : Nat) (x : ℚ) : Prop where
  low : (r : ℚ) - 1 / 2 ≤ x
  high : x ≤ r + 1 / 2
  odd : r % 2 = 1 → (r : ℚ) - 1 / 2 < x ∧ x < r + 1 / 2

variable {em : ExtendedMantissa} {x : ℚ}

theorem standsFor_exact (m : Nat) : StandsFor (ExtendedMantissa.ofMantissaAndAccuracy m .exact) m :=
  ⟨0, le_refl _, by norm_num, by simp [ExtendedMantissa.ofMantissaAndAccuracy], by
    simp [ExtendedMantissa.ofMantissaAndAccuracy]⟩

/-- The quotient of a division, with what its remainder says about the rest. -/
theorem standsFor_quotient {d : Nat} (hd : 0 < d) (n : Nat) :
    StandsFor (ExtendedMantissa.ofMantissaAndAccuracy (n / d) (accuracyOfFraction (n % d) d)) (n / d : ℚ) := by
  have hpos : (0 : ℚ) < d := by exact_mod_cast hd
  have hless : ((n % d : Nat) : ℚ) < d := by exact_mod_cast Nat.mod_lt n hd
  have hquotient : (n / d : ℚ) = (n / d : Nat) + (n % d : Nat) / d := by
    rw [eq_comm, ← eq_sub_iff_add_eq, eq_sub_iff_add_eq, eq_div_iff hpos.ne', add_mul, div_mul_cancel₀ _ hpos.ne']
    exact_mod_cast Nat.div_add_mod' n d
  rw [hquotient]
  generalize n % d = r at hless
  unfold accuracyOfFraction
  by_cases h0 : r = 0
  · rw [if_pos h0, h0]
    simpa using standsFor_exact (n / d)
  · have hr : (0 : ℚ) < r := by exact_mod_cast Nat.pos_of_ne_zero h0
    rw [if_neg h0]
    cases hcompare : compare (2 * r) d with
    | lt =>
        have hhalf : 2 * (r : ℚ) < d := by exact_mod_cast Nat.compare_eq_lt.mp hcompare
        exact ⟨r / d, (div_pos hr hpos).le, by rw [div_lt_iff₀ hpos]; linarith,
          by simp [ExtendedMantissa.ofMantissaAndAccuracy, h0, hd.ne'], by
            simp [ExtendedMantissa.ofMantissaAndAccuracy]⟩
    | eq =>
        have hhalf : 2 * (r : ℚ) = d := by exact_mod_cast Nat.compare_eq_eq.mp hcompare
        refine ⟨0, le_refl _, by norm_num, by simp [ExtendedMantissa.ofMantissaAndAccuracy], ?_⟩
        have hratio : (r : ℚ) / d = 1 / 2 := by rw [div_eq_iff hpos.ne']; linarith
        simp [ExtendedMantissa.ofMantissaAndAccuracy, hratio]
    | gt =>
        have hhalf : (d : ℚ) < 2 * r := by exact_mod_cast Nat.compare_eq_gt.mp hcompare
        have hrest : 1 / 2 < (r : ℚ) / d := by rw [lt_div_iff₀ hpos]; linarith
        have hone : (r : ℚ) / d < 1 := by rw [div_lt_one hpos]; exact hless
        refine ⟨r / d - 1 / 2, by linarith, by linarith, ?_, ?_⟩
        · simp only [ExtendedMantissa.ofMantissaAndAccuracy, true_iff]
          linarith
        · simp [ExtendedMantissa.ofMantissaAndAccuracy]

theorem StandsFor.shiftRightOne (h : StandsFor em x) : StandsFor em.shiftRightOne (x / 2) := by
  obtain ⟨rest, hrest, hhalf, hsticky, rfl⟩ := h
  obtain ⟨m, round, sticky⟩ := em
  have hm : (m : ℚ) = 2 * (m / 2 : Nat) + (m % 2 : Nat) := by exact_mod_cast (Nat.div_add_mod m 2).symm
  refine ⟨((if round then 1 / 2 else 0) + rest) / 2, ?_, ?_, ?_, ?_⟩
  · cases round <;> simp <;> linarith
  · cases round <;> simp <;> linarith
  · cases round with
    | false => simpa [ExtendedMantissa.shiftRightOne] using hsticky
    | true =>
        simp [ExtendedMantissa.shiftRightOne]
        linarith
  · rcases Nat.mod_two_eq_zero_or_one m with h | h
    · simp [ExtendedMantissa.shiftRightOne, h] at hm ⊢
      linarith
    · simp [ExtendedMantissa.shiftRightOne, h] at hm ⊢
      linarith

theorem StandsFor.shiftRight (h : StandsFor em x) (n : Nat) : StandsFor (em >>> n) (x / 2 ^ n) := by
  induction n with
  | zero =>
      rw [pow_zero, div_one]
      exact h
  | succ n ih =>
      rw [shiftRight_succ, pow_succ, ← div_div]
      exact ih.shiftRightOne

/-- The significand is no more than the number. -/
theorem StandsFor.floor_le (h : StandsFor em x) : em.mantissa ≤ x := by
  obtain ⟨rest, hrest, -, -, rfl⟩ := h
  split <;> linarith

/-- Rounding by the residual bits is rounding to the nearest whole number. -/
theorem StandsFor.isNearest (h : StandsFor em x) : IsNearest em.roundedMantissa x := by
  obtain ⟨rest, hrest, hhalf, hsticky, rfl⟩ := h
  obtain ⟨m, round, sticky⟩ := em
  cases round with
  | false =>
      have hr : ExtendedMantissa.roundedMantissa ⟨m, false, sticky⟩ = m := by cases sticky <;> rfl
      rw [hr]
      simp only [Bool.false_eq_true, if_false]
      exact ⟨by linarith, by linarith, fun _ => ⟨by linarith, by linarith⟩⟩
  | true =>
      simp only [if_true]
      cases sticky with
      | true =>
          have hr : ExtendedMantissa.roundedMantissa ⟨m, true, true⟩ = m + 1 := rfl
          have hpos : 0 < rest := lt_of_le_of_ne hrest (Ne.symm (hsticky.mp rfl))
          have hcast : ((m + 1 : Nat) : ℚ) = m + 1 := Nat.cast_succ m
          rw [hr]
          exact ⟨by linarith, by linarith, fun _ => ⟨by linarith, by linarith⟩⟩
      | false =>
          have hr : ExtendedMantissa.roundedMantissa ⟨m, true, false⟩ = m + m % 2 := rfl
          have hzero : rest = 0 := by simpa using hsticky
          have hcast : ((m + m % 2 : Nat) : ℚ) = m + (m % 2 : Nat) := Nat.cast_add ..
          have hparity : (0 : ℚ) ≤ (m % 2 : Nat) ∧ ((m % 2 : Nat) : ℚ) ≤ 1 := by
            constructor
            · exact Nat.cast_nonneg _
            · exact_mod_cast Nat.le_of_lt_succ (Nat.mod_lt m Nat.two_pos)
          rw [hr, hzero]
          exact ⟨by linarith, by linarith, fun hodd => absurd hodd (by omega)⟩

/-! ### The shift before rounding

Rounding aims at fifty-three bits and does not go below the least exponent.  A significand that
has too few bits to begin with is shifted only where its exponent is too small; those that
arithmetic makes have enough, or are at the least exponent already.
-/

theorem mantissa_shiftRight (em : ExtendedMantissa) (n : Nat) : (em >>> n).mantissa = em.mantissa / 2 ^ n := by
  induction n with
  | zero => exact (Nat.div_one _).symm
  | succ n ih =>
      rw [shiftRight_succ, Nat.pow_succ, ← Nat.div_div_eq_div_mul, ← ih]
      rfl

theorem mantissa_ofMantissaAndAccuracy (m : Nat) (acc : Accuracy) :
    (ExtendedMantissa.ofMantissaAndAccuracy m acc).mantissa = m := by
  cases acc with
  | exact => rfl
  | inexact half => cases half <;> rfl

/-- What is left of a significand that has at least fifty-three bits, or whose exponent is at most the least one: at
most fifty-three bits, and just as many of them unless the exponent is the least one. -/
theorem shift_spec {m : Nat} {e : Int} (acc : Accuracy) (h : 2 ^ 52 ≤ m ∨ e ≤ -1074) :
    ∃ em, ∃ n : Nat, em = ExtendedMantissa.ofMantissaAndAccuracy m acc >>> n ∧ (n : Int) = aim m e - e
      ∧ shiftToTargetExponent Format.binary64 m e acc = (em, aim m e)
      ∧ em.mantissa < 2 ^ 53 ∧ (-1074 < aim m e → 2 ^ 52 ≤ em.mantissa) := by
  have haim : aim m e = max (m.log2 + 1 + e - 53) (-1074) := rfl
  have hhigh : m < 2 ^ (m.log2 + 1) := Nat.lt_log2_self
  have hlog : 2 ^ 52 ≤ m → 52 ≤ m.log2 := fun hm => (Nat.le_log2 (by omega)).mpr hm
  obtain ⟨n, hn⟩ : ∃ n : Nat, (n : Int) = aim m e - e := by
    refine ⟨(aim m e - e).toNat, ?_⟩
    rcases h with hm | he
    · have := hlog hm
      omega
    · omega
  refine ⟨_, n, rfl, hn, ?_, ?_, ?_⟩
  · rw [shiftToTargetExponent_eq, ← hn, Int.toNat_natCast]
    congr 1
    omega
  · rw [mantissa_shiftRight, mantissa_ofMantissaAndAccuracy]
    refine (Nat.div_lt_iff_lt_mul (Nat.two_pow_pos _)).mpr (Nat.lt_of_lt_of_le hhigh ?_)
    rw [← Nat.pow_add]
    exact Nat.pow_le_pow_right Nat.two_pos (by omega)
  · intro hnormal
    have hm0 : m ≠ 0 := by
      rintro rfl
      rw [Nat.log2_zero] at haim
      omega
    rw [mantissa_shiftRight, mantissa_ofMantissaAndAccuracy, Nat.le_div_iff_mul_le (Nat.two_pow_pos _), ← Nat.pow_add]
    exact Nat.le_trans (Nat.pow_le_pow_right Nat.two_pos (by omega)) (Nat.log2_self_le hm0)

end PartProgram.Rounding

namespace PartProgram.Decimal.Binary

open Float.Model Float.Model.UnpackedFloat PartProgram.Rounding

/-! ### The numbers that a float attracts

A whole number of steps that is nearest to a number attracts it, with one exception: below a
power of two the steps are half as long, so the first float above it reaches less far down.  The
significand has no bit to spare there, and so what is rounded to it is not below the power.
-/

/-- A significand of at most fifty-three bits, and of just as many unless the exponent is the least one. -/
structure Normal (b : Binary) : Prop where
  bits : b.significand < 2 ^ 53
  least : -1074 ≤ b.exponent
  full : -1074 < b.exponent → 2 ^ 52 ≤ b.significand

variable {b c : Binary} {v : ℚ}

/-- A whole number of steps attracts what it is nearest to; the first one of a power of two needs it to be no
smaller than the power. -/
theorem attracts_of_isNearest {r : Nat} {t : Int} {y : ℚ} (h : IsNearest r y) (hy : 0 ≤ y)
    (hfirst : r = 2 ^ 52 → -1074 < t → 2 ^ 52 ≤ y) (negative : Bool) :
    (Binary.mk negative r t).Attracts (y * 2 ^ t) := by
  have hstep := two_zpow_pos t
  have hend : ((Binary.mk negative r t).lowerEnd : ℚ) / 4 ≤ y
      ∧ (r % 2 = 1 → ((Binary.mk negative r t).lowerEnd : ℚ) / 4 < y) := by
    by_cases hpower : (Binary.mk negative r t).isFirstOfPower = true
    · have hpow := hpower
      simp only [isFirstOfPower, Bool.and_eq_true, decide_eq_true_eq] at hpow
      have hreach := hfirst hpow.1 hpow.2
      rw [lowerEnd, if_pos hpower, hpow.1]
      refine ⟨?_, fun hodd => absurd hodd (by decide)⟩
      norm_num
      linarith
    · rw [lowerEnd, if_neg hpower]
      by_cases hzero : r = 0
      · rw [hzero]
        refine ⟨by simpa using hy, fun hodd => absurd hodd (by decide)⟩
      · have hcast : ((4 * r - 2 : Nat) : ℚ) = 4 * r - 2 := by
          rw [Nat.cast_sub (by omega)]
          push_cast
          ring
        rw [hcast]
        exact ⟨by linarith [h.low], fun hodd => by linarith [(h.odd hodd).1]⟩
  have hupper : ((Binary.mk negative r t).upperEnd : ℚ) / 4 = r + 1 / 2 := by
    rw [upperEnd]
    push_cast
    ring
  refine ⟨mul_le_mul_of_nonneg_right hend.1 hstep.le, ?_, ?_⟩
  · rw [quarters, hupper]
    exact mul_le_mul_of_nonneg_right h.high hstep.le
  · intro hodd
    rw [quarters, quarters, hupper]
    exact ⟨mul_lt_mul_of_pos_right (hend.2 hodd) hstep, mul_lt_mul_of_pos_right (h.odd hodd).2 hstep⟩

/-- Where rounding carries over, the first float of the next power of two attracts what was rounded. -/
theorem attracts_of_carry {t : Int} {y : ℚ} (h : IsNearest (2 ^ 53) y) (negative : Bool) :
    (Binary.mk negative (2 ^ 52) (t + 1)).Attracts (y * 2 ^ t) := by
  have hstep := two_zpow_pos t
  have hdouble : (2 : ℚ) ^ (t + 1) = 2 * 2 ^ t := by rw [zpow_add_one₀ (by norm_num), mul_comm]
  have hlow := h.low
  have hhigh := h.high
  norm_num at hlow hhigh
  have hend : ((Binary.mk negative (2 ^ 52) (t + 1)).lowerEnd : ℚ) ≤ 2 ^ 54 - 1 := by
    unfold lowerEnd
    split <;> norm_num
  refine ⟨?_, ?_, fun hodd => absurd (show 2 ^ 52 % 2 = 1 from hodd) (by decide)⟩
  · rw [quarters, hdouble, ← mul_assoc]
    refine mul_le_mul_of_nonneg_right ?_ hstep.le
    linarith
  · rw [quarters, hdouble, ← mul_assoc, upperEnd]
    refine mul_le_mul_of_nonneg_right ?_ hstep.le
    norm_num
    linarith

/-- **Rounding is to the nearest.**  A significand that stands for a number, at an exponent that loses nothing of it, is
rounded to a float that attracts the number. -/
theorem attracts_roundWithAccuracy (s : Sign) {m : Nat} {e : Int} {acc : Accuracy} {x : ℚ}
    (hx : StandsFor (ExtendedMantissa.ofMantissaAndAccuracy m acc) x) (h : 2 ^ 52 ≤ m ∨ e ≤ -1074) :
    ∃ b, ofUnpacked? (roundWithAccuracy Format.binary64 s m e acc) = some b
      ∧ b.negative = (s == .negative) ∧ b.Normal ∧ b.Attracts (x * 2 ^ e) := by
  obtain ⟨em, n, rfl, hn, hfirst, hbits, hfull⟩ := shift_spec acc h
  obtain ⟨em, hem⟩ : ∃ em, em = ExtendedMantissa.ofMantissaAndAccuracy m acc >>> n := ⟨_, rfl⟩
  rw [← hem] at hfirst hbits hfull
  have hstands : StandsFor em (x / 2 ^ n) := hem ▸ hx.shiftRight n
  have hnear := hstands.isNearest
  have hmin : -1074 ≤ aim m e := Int.le_max_right _ _
  have hle := le_roundedMantissa em
  have hcarry := roundedMantissa_le em
  have hscale : x * 2 ^ e = x / 2 ^ n * 2 ^ aim m e := by
    rw [show aim m e = n + e by omega, zpow_add₀ (by norm_num), zpow_natCast, ← mul_assoc,
      div_mul_cancel₀ _ (by positivity)]
  rw [hscale, round_eq s hfirst hmin (by omega)]
  generalize x / 2 ^ n = y at hstands hnear ⊢
  have hfloor := hstands.floor_le
  have hpower : -1074 < aim m e → 2 ^ 52 ≤ y := fun hlt =>
    le_trans (by exact_mod_cast hfull hlt) hfloor
  have hnonneg : 0 ≤ y := le_trans (Nat.cast_nonneg _) hfloor
  by_cases hzero : em.roundedMantissa = 0
  · have hleast : aim m e = -1074 := by
      by_contra hne
      have := hfull (by omega)
      omega
    rw [dif_pos hzero]
    refine ⟨_, rfl, rfl, ⟨Nat.two_pow_pos 53, le_refl _, fun hlt => absurd hlt (lt_irrefl _)⟩, ?_⟩
    rw [hleast]
    exact attracts_of_isNearest (hzero ▸ hnear) hnonneg (fun hne => absurd hne (by decide)) _
  · rw [dif_neg hzero]
    by_cases htop : em.roundedMantissa = 2 ^ 53
    · rw [if_pos htop]
      refine ⟨_, rfl, rfl, ⟨show 2 ^ 52 < 2 ^ 53 by decide, ?_, fun _ => le_refl _⟩, attracts_of_carry (htop ▸ hnear) _⟩
      show -1074 ≤ aim m e + 1
      omega
    · rw [if_neg htop]
      refine ⟨_, rfl, rfl, ⟨?_, hmin, fun hlt => le_trans (hfull hlt) hle⟩,
        attracts_of_isNearest hnear hnonneg (fun _ => hpower) _⟩
      show em.roundedMantissa < 2 ^ 53
      omega

/-! ### One float for each number

Of two floats the later one has the greater magnitude, and between them there is a point where
the one ends and the other begins.  A number that both attracted would be that point, and each
would have to be even.  Neighbours never are, which takes a look at their significands, once on
one exponent and once across the step from one exponent to the next.
-/

/-- The float comes before the other one in the order of magnitude. -/
def Before (b c : Binary) : Prop :=
  b.exponent < c.exponent ∨ (b.exponent = c.exponent ∧ b.significand < c.significand)

/-- Above the least power of two the lower end is at least a quarter step below a full significand. -/
theorem Normal.le_lowerEnd (hb : b.Normal) (h : -1074 < b.exponent) : 2 ^ 54 - 1 ≤ b.lowerEnd := by
  have hfull := hb.full h
  unfold lowerEnd
  split
  · omega
  · rename_i hno
    have hfirst : b.significand ≠ 2 ^ 52 := by
      intro heq
      exact hno (by rw [isFirstOfPower, decide_eq_true heq, decide_eq_true h, Bool.and_self])
    omega

theorem quarters_le_quarters {m n : Nat} (h : m ≤ n) : b.quarters m ≤ b.quarters n :=
  mul_le_mul_of_nonneg_right (by gcongr) (two_zpow_pos _).le

theorem quarters_injective (b : Binary) : Function.Injective b.quarters := by
  intro m n h
  have hcast := mul_right_cancel₀ (two_zpow_pos b.exponent).ne' h
  rw [div_left_inj' (by norm_num)] at hcast
  exact_mod_cast hcast

/-- Quarter steps of a later float, counted in those of the earlier one. -/
theorem quarters_of_later {k : Nat} (h : c.exponent = b.exponent + k) (n : Nat) :
    c.quarters n = b.quarters (n * 2 ^ k) := by
  rw [quarters, quarters, h, zpow_add₀ (by norm_num), zpow_natCast]
  push_cast
  ring

/-- The upper end of a float is not above the lower end of a later one, and where they meet one of the two floats is
odd. -/
theorem upperEnd_le_lowerEnd (hb : b.Normal) (hc : c.Normal) (h : b.Before c) :
    b.quarters b.upperEnd ≤ c.quarters c.lowerEnd
      ∧ (b.quarters b.upperEnd = c.quarters c.lowerEnd → b.significand % 2 = 1 ∨ c.significand % 2 = 1) := by
  have hbits := hb.bits
  rcases h with hless | ⟨hsame, hless⟩
  · obtain ⟨k, hk⟩ : ∃ k : Nat, c.exponent = b.exponent + (k + 1 : Nat) :=
      ⟨(c.exponent - b.exponent - 1).toNat, by omega⟩
    have hlower : 2 * (2 ^ 54 - 1) ≤ c.lowerEnd * 2 ^ (k + 1) := by
      have hfull := hc.le_lowerEnd (lt_of_le_of_lt hb.least hless)
      have htwo : 2 ^ 1 ≤ 2 ^ (k + 1) := Nat.pow_le_pow_right Nat.two_pos (by omega)
      calc 2 * (2 ^ 54 - 1) = (2 ^ 54 - 1) * 2 ^ 1 := by decide
        _ ≤ c.lowerEnd * 2 ^ (k + 1) := Nat.mul_le_mul hfull htwo
    have hupper : b.upperEnd ≤ 2 * (2 ^ 54 - 1) := by
      unfold upperEnd
      omega
    rw [quarters_of_later hk]
    refine ⟨quarters_le_quarters (hupper.trans hlower), fun hmeet => ?_⟩
    have heq := b.quarters_injective hmeet
    left
    unfold upperEnd at heq hupper
    omega
  · have hquarters (n : Nat) : c.quarters n = b.quarters n := by rw [quarters, quarters, hsame]
    rw [hquarters]
    unfold upperEnd lowerEnd
    refine ⟨quarters_le_quarters (by split <;> omega), fun hmeet => ?_⟩
    have heq := b.quarters_injective hmeet
    split at heq <;> omega

theorem not_before (hb : b.Normal) (hc : c.Normal) (h : b.Attracts v) (h' : c.Attracts v) : ¬ b.Before c := by
  intro hbefore
  obtain ⟨hle, hmeet⟩ := upperEnd_le_lowerEnd hb hc hbefore
  have heq : b.quarters b.upperEnd = c.quarters c.lowerEnd := le_antisymm hle (le_trans h'.low h.high)
  rcases hmeet heq with hodd | hodd
  · exact absurd ((h.odd hodd).2.trans_le (heq ▸ h'.low)) (lt_irrefl _)
  · exact absurd ((h'.odd hodd).1.trans_le (heq ▸ h.high)) (lt_irrefl _)

/-- **One float for each number.**  A number is attracted by one float of each sign at most. -/
theorem Attracts.unique (hb : b.Normal) (hc : c.Normal) (h : b.Attracts v) (h' : c.Attracts v)
    (hsign : b.negative = c.negative) : b = c := by
  have hbc := not_before hb hc h h'
  have hcb := not_before hc hb h' h
  unfold Before at hbc hcb
  obtain ⟨negative, m, e⟩ := b
  obtain ⟨negative', m', e'⟩ := c
  dsimp only at hbc hcb hsign
  obtain rfl : e = e' := by omega
  obtain rfl : m = m' := by omega
  rw [hsign]

/-- A float attracts the number that it is. -/
theorem attracts_magnitude (b : Binary) : b.Attracts b.magnitude := by
  obtain ⟨hlow, hhigh⟩ := b.magnitude_between
  refine ⟨hlow, hhigh, fun hodd => ⟨quarters_lowerEnd_lt (by omega), ?_⟩⟩
  rw [quarters_upperEnd]
  linarith [two_zpow_pos b.exponent]

end PartProgram.Decimal.Binary
