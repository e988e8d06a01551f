/-
When a product of floats leaves the range.

A product is rounded by shifting its exact significand to the right until fifty-three bits
are left; what falls off is remembered in a round bit and a sticky bit.  Rounding adds at
most one, so the exponent that comes out is the one that was aimed at, or one more when all
fifty-three bits were set and rounding carried over.  The second case happens exactly from
half a step below the next power of two on, and it is what makes the range end half a step
above the greatest float, at `2 ^ 1024 - 2 ^ 970`.

Powers of two with negative exponents are avoided throughout: a magnitude `m · 2 ^ e` is
compared as `m · 2 ^ (e + 1200)`, which is a natural number for every exponent that occurs.
-/
import PartProgram.Decimal.Layout

namespace PartProgram.Rounding

open Float.Model Float.Model.UnpackedFloat

/-! ### Shifting to the right -/

theorem shiftRight_succ (em : ExtendedMantissa) (n : Nat) : em >>> (n + 1) = (em >>> n).shiftRightOne := rfl

/-- What a right shift of a whole number leaves: the quotient, the bit below it, and whether
anything is below that. -/
theorem shiftRight_exact (m n : Nat) :
    (ExtendedMantissa.ofMantissaAndAccuracy m .exact) >>> (n + 1) =
      ⟨m / 2 ^ (n + 1), m / 2 ^ n % 2 != 0, decide (m % 2 ^ n ≠ 0)⟩ := by
  induction n with
  | zero =>
      rw [shiftRight_succ]
      show ExtendedMantissa.shiftRightOne ⟨m, false, false⟩ = _
      simp [ExtendedMantissa.shiftRightOne, Nat.mod_one]
  | succ n ih =>
      have hsticky : m % 2 ^ (n + 1) = m % 2 ^ n + 2 ^ n * (m / 2 ^ n % 2) := Nat.mod_pow_succ
      have hpos : 0 < 2 ^ n := Nat.two_pow_pos n
      rw [shiftRight_succ, ih, ExtendedMantissa.shiftRightOne, Nat.div_div_eq_div_mul, ← Nat.pow_succ]
      congr 1
      rcases Nat.mod_two_eq_zero_or_one (m / 2 ^ n) with h | h
      · rw [hsticky, h]
        simp
      · rw [hsticky, h]
        simp

/-- Rounding adds nothing or one. -/
theorem roundedMantissa_le (em : ExtendedMantissa) : em.roundedMantissa ≤ em.mantissa + 1 := by
  rcases em with ⟨m, r, s⟩
  cases r with
  | false => cases s <;> exact Nat.le_succ m
  | true =>
      cases s with
      | false =>
          show m + m % 2 ≤ m + 1
          omega
      | true => exact Nat.le_refl (m + 1)

theorem le_roundedMantissa (em : ExtendedMantissa) : em.mantissa ≤ em.roundedMantissa := by
  rcases em with ⟨m, r, s⟩
  cases r with
  | false => cases s <;> exact Nat.le_refl m
  | true => cases s <;> exact Nat.le_add_right ..

/-- An odd quotient is rounded up exactly when the bit below it is set. -/
theorem roundedMantissa_of_odd {em : ExtendedMantissa} (h : em.mantissa % 2 = 1) :
    em.roundedMantissa = em.mantissa + em.roundBit.toNat := by
  rcases em with ⟨m, r, s⟩
  have hodd : m % 2 = 1 := h
  cases r with
  | false => cases s <;> rfl
  | true =>
      cases s with
      | false =>
          show m + m % 2 = m + 1
          rw [hodd]
      | true => rfl

/-- A quotient of at most fifty-three bits is rounded to at most `2 ^ 53`, and to that just
from half a step below it on. -/
theorem rounded_shiftRight {m n : Nat} (h : m / 2 ^ (n + 1) < 2 ^ 53) :
    let r := ((ExtendedMantissa.ofMantissaAndAccuracy m .exact) >>> (n + 1)).roundedMantissa
    r ≤ 2 ^ 53 ∧ (r = 2 ^ 53 ↔ (2 ^ 54 - 1) * 2 ^ n ≤ m) := by
  intro r
  have hshift := shiftRight_exact m n
  have hpos : 0 < 2 ^ n := Nat.two_pow_pos n
  have hmantissa : ((ExtendedMantissa.ofMantissaAndAccuracy m .exact) >>> (n + 1)).mantissa = m / 2 ^ (n + 1) := by
    rw [hshift]
  have hle : r ≤ m / 2 ^ (n + 1) + 1 := hmantissa ▸ roundedMantissa_le _
  have hhalf : m / 2 ^ (n + 1) = m / 2 ^ n / 2 := by rw [Nat.div_div_eq_div_mul, Nat.pow_succ]
  have hbound : (2 ^ 54 - 1) * 2 ^ n ≤ m ↔ 2 ^ 54 - 1 ≤ m / 2 ^ n := (Nat.le_div_iff_mul_le hpos).symm
  refine ⟨by omega, ?_⟩
  rw [hbound]
  by_cases htop : m / 2 ^ (n + 1) = 2 ^ 53 - 1
  · have hodd : ((ExtendedMantissa.ofMantissaAndAccuracy m .exact) >>> (n + 1)).mantissa % 2 = 1 := by
      rw [hmantissa]
      omega
    have hr : r = 2 ^ 53 - 1 + (m / 2 ^ n % 2 != 0).toNat := by
      show ExtendedMantissa.roundedMantissa _ = _
      rw [roundedMantissa_of_odd hodd, hmantissa, htop, hshift]
    rw [hr]
    rcases Nat.mod_two_eq_zero_or_one (m / 2 ^ n) with hbit | hbit
    · simp [hbit]
      omega
    · simp [hbit]
      omega
  · constructor
    · intro h
      omega
    · intro h
      omega

/-! ### Rounding

What is rounded is shifted to the exponent aimed at, rounded, and shifted once more in case it
has carried over.  The second shift is exact, since what has carried over is a power of two.  So
the exponent goes up by one in this one case and by nothing in all others.
-/

/-- The exponent that rounding aims at. -/
def aim (m : Nat) (e : Int) : Int := max (m.log2 + 1 + e - 53) (-1074)

theorem shiftToTargetExponent_eq (m : Nat) (e : Int) (acc : Accuracy) :
    shiftToTargetExponent Format.binary64 m e acc =
      (ExtendedMantissa.ofMantissaAndAccuracy m acc >>> (aim m e - e).toNat, e + (aim m e - e).toNat) := rfl

theorem shift_of_small {r : Nat} {t : Int} (hr : r < 2 ^ 53) (ht : -1074 ≤ t) :
    shiftToTargetExponent Format.binary64 r t .exact = (⟨r, false, false⟩, t) := by
  have hlog : r.log2 ≤ 52 := by
    by_cases h0 : r = 0
    · rw [h0]
      decide
    · have := (Nat.log2_lt h0).mpr hr
      omega
  have hstay : (aim r t - t).toNat = 0 := by
    unfold aim
    omega
  rw [shiftToTargetExponent_eq, hstay]
  simp [ExtendedMantissa.ofMantissaAndAccuracy]
  rfl

theorem shift_of_full {t : Int} (ht : -1074 ≤ t) :
    shiftToTargetExponent Format.binary64 (2 ^ 53) t .exact = (⟨2 ^ 52, false, false⟩, t + 1) := by
  have hstay : (aim (2 ^ 53) t - t).toNat = 1 := by
    rw [aim, Nat.log2_two_pow]
    omega
  rw [shiftToTargetExponent_eq, hstay]
  rfl

/-- What is rounded is shifted twice, because rounding may carry over, and the second time nothing
is rounded. -/
theorem round_of_shifts (s : Sign) {m : Nat} {e t t' : Int} {em em' : ExtendedMantissa} {acc : Accuracy}
    (hfirst : shiftToTargetExponent Format.binary64 m e acc = (em, t))
    (hsecond : shiftToTargetExponent Format.binary64 em.roundedMantissa t .exact = (em', t')) :
    roundWithAccuracy Format.binary64 s m e acc =
      if h : em'.mantissa = 0 then .zero s else .finite s em'.mantissa t' (Nat.pos_of_ne_zero h) := by
  unfold roundWithAccuracy
  rw [hfirst]
  dsimp only
  rw [hsecond]

/-- What rounding comes to: the rounded quotient at the exponent aimed at, unless it has
carried over. -/
theorem round_eq (s : Sign) {m : Nat} {e : Int} {em : ExtendedMantissa} {t : Int} {acc : Accuracy}
    (hfirst : shiftToTargetExponent Format.binary64 m e acc = (em, t)) (ht : -1074 ≤ t)
    (hr : em.roundedMantissa ≤ 2 ^ 53) :
    roundWithAccuracy Format.binary64 s m e acc =
      if h : em.roundedMantissa = 0 then .zero s
      else if em.roundedMantissa = 2 ^ 53 then .finite s (2 ^ 52) (t + 1) (by decide)
      else .finite s em.roundedMantissa t (Nat.pos_of_ne_zero h) := by
  by_cases hfull : em.roundedMantissa = 2 ^ 53
  · have hne : ¬ em.roundedMantissa = 0 := by omega
    have hsecond := shift_of_full ht
    rw [← hfull] at hsecond
    rw [round_of_shifts s hfirst hsecond, dif_neg hne, if_pos hfull]
    rfl
  · have hsmall : em.roundedMantissa < 2 ^ 53 := by omega
    rw [round_of_shifts s hfirst (shift_of_small hsmall ht)]
    by_cases hz : em.roundedMantissa = 0
    · rw [dif_pos hz, dif_pos hz]
    · rw [dif_neg hz, dif_neg hz, if_neg hfull]

/-- The value leaves the range when it is packed. -/
def Exceeds : UnpackedFloat → Prop
  | .finite _ _ e _ => 972 ≤ e
  | _ => False

/-- The value is a number of the given sign. -/
def IsSigned (s : Sign) : UnpackedFloat → Prop
  | .finite s' _ _ _ => s' = s
  | .zero s' => s' = s
  | _ => False

theorem two_pow_split {a b c : Nat} (h : a = b + c) : 2 ^ a = 2 ^ b * 2 ^ c := by rw [h, Nat.pow_add]

theorem half_step_below {t p q k a : Nat} (ht : t = 54 + p) (h : k + a = p + q) :
    (2 ^ t - 2 ^ p) * 2 ^ q = (2 ^ 54 - 1) * 2 ^ k * 2 ^ a := by
  have hstep (x : Nat) : 2 ^ 54 * x - x = (2 ^ 54 - 1) * x := by omega
  rw [two_pow_split ht, hstep, Nat.mul_assoc, Nat.mul_assoc, ← Nat.pow_add, ← Nat.pow_add, h]

/-- The end of the range, half a step above the greatest float, in the scale of the
comparison. -/
theorem limit_eq {k a : Nat} (h : k + a = 2170) : (2 ^ 1024 - 2 ^ 970) * 2 ^ 1200 = (2 ^ 54 - 1) * 2 ^ k * 2 ^ a :=
  half_step_below (t := 1024) (p := 970) (q := 1200) rfl h

theorem limit_le_two_pow {t : Nat} (h : 2224 ≤ t) : (2 ^ 1024 - 2 ^ 970) * 2 ^ 1200 ≤ 2 ^ t := by
  obtain ⟨k, hk⟩ : ∃ k, k = 2170 := ⟨_, rfl⟩
  rw [limit_eq (k := 0) (a := k) (by omega)]
  calc (2 ^ 54 - 1) * 2 ^ 0 * 2 ^ k ≤ 2 ^ 54 * 2 ^ k := Nat.mul_le_mul_right _ (by omega)
    _ = 2 ^ (54 + k) := (Nat.pow_add ..).symm
    _ ≤ 2 ^ t := Nat.pow_le_pow_right Nat.two_pos (by omega)

theorem two_pow_lt_limit {t : Nat} (h : t ≤ 2223) : 2 ^ t < (2 ^ 1024 - 2 ^ 970) * 2 ^ 1200 := by
  obtain ⟨k, hk⟩ : ∃ k, k = 2170 := ⟨_, rfl⟩
  rw [limit_eq (k := 0) (a := k) (by omega)]
  calc 2 ^ t ≤ 2 ^ (53 + k) := Nat.pow_le_pow_right Nat.two_pos (by omega)
    _ = 2 ^ 53 * 2 ^ k := Nat.pow_add ..
    _ < (2 ^ 54 - 1) * 2 ^ 0 * 2 ^ k := Nat.mul_lt_mul_of_pos_right (by omega) (Nat.two_pow_pos k)

/-- The first shift of a significand of at least fifty-three bits.  The rounded quotient
carries over exactly in the topmost half step, and it can vanish only at the least exponent.
-/
theorem first_shift {m : Nat} {e : Int} (hm : 2 ^ 52 ≤ m) :
    ∃ em, shiftToTargetExponent Format.binary64 m e .exact = (em, aim m e) ∧ em.roundedMantissa ≤ 2 ^ 53
      ∧ (em.roundedMantissa = 2 ^ 53 ↔ ∃ k, (aim m e - e).toNat = k + 1 ∧ (2 ^ 54 - 1) * 2 ^ k ≤ m)
      ∧ (em.roundedMantissa = 0 → aim m e = -1074) := by
  have hm0 : m ≠ 0 := by omega
  have hlog : 52 ≤ m.log2 := (Nat.le_log2 hm0).mpr hm
  have hlow : 2 ^ m.log2 ≤ m := Nat.log2_self_le hm0
  have hhigh : m < 2 ^ (m.log2 + 1) := Nat.lt_log2_self
  have haim : aim m e = max (m.log2 + 1 + e - 53) (-1074) := rfl
  refine ⟨ExtendedMantissa.ofMantissaAndAccuracy m .exact >>> (aim m e - e).toNat, ?_, ?_⟩
  · rw [shiftToTargetExponent_eq]
    congr 1
    omega
  · cases hn : (aim m e - e).toNat with
    | zero =>
        have hsmall : m < 2 ^ 53 := Nat.lt_of_lt_of_le hhigh (Nat.pow_le_pow_right (by omega) (by omega))
        have hr : (ExtendedMantissa.ofMantissaAndAccuracy m .exact >>> 0).roundedMantissa = m := rfl
        rw [hr]
        refine ⟨by omega, ⟨fun h => by omega, ?_⟩, fun h => absurd h hm0⟩
        rintro ⟨k, hk, -⟩
        omega
    | succ n =>
        have hquotient : m / 2 ^ (n + 1) < 2 ^ 53 := by
          refine (Nat.div_lt_iff_lt_mul (Nat.two_pow_pos _)).mpr (Nat.lt_of_lt_of_le hhigh ?_)
          rw [← Nat.pow_add]
          exact Nat.pow_le_pow_right (by omega) (by omega)
        obtain ⟨hle, hcarry⟩ := rounded_shiftRight hquotient
        refine ⟨hle, ⟨fun h => ⟨n, rfl, hcarry.mp h⟩, ?_⟩, ?_⟩
        · rintro ⟨k, hk, h⟩
          obtain rfl : n = k := by omega
          exact hcarry.mpr h
        · intro hzero
          -- A quotient that rounds to zero is zero, so more bits were shifted out than the significand has.
          have hmantissa : (ExtendedMantissa.ofMantissaAndAccuracy m .exact >>> (n + 1)).mantissa
              = m / 2 ^ (n + 1) := by rw [shiftRight_exact]
          have hge := le_roundedMantissa (ExtendedMantissa.ofMantissaAndAccuracy m .exact >>> (n + 1))
          have hlt : m < 2 ^ (n + 1) := by
            rcases Nat.lt_or_ge m (2 ^ (n + 1)) with h | h
            · exact h
            · have := Nat.div_pos h (Nat.two_pow_pos _)
              omega
          have hbits : m.log2 < n + 1 := (Nat.log2_lt hm0).mpr hlt
          omega

/-- The end of the range in terms of the exponent aimed at. -/
theorem limit_le_iff {m : Nat} {e : Int} (hm : 2 ^ 52 ≤ m) (he : -1200 ≤ e) :
    (2 ^ 1024 - 2 ^ 970) * 2 ^ 1200 ≤ m * 2 ^ (e + 1200).toNat ↔
      972 ≤ aim m e
      ∨ (aim m e = 971 ∧ ∃ k, (aim m e - e).toNat = k + 1 ∧ (2 ^ 54 - 1) * 2 ^ k ≤ m) := by
  have hm0 : m ≠ 0 := by omega
  have hlog : 52 ≤ m.log2 := (Nat.le_log2 hm0).mpr hm
  have hlow : 2 ^ m.log2 ≤ m := Nat.log2_self_le hm0
  have hhigh : m < 2 ^ (m.log2 + 1) := Nat.lt_log2_self
  have haim : aim m e = max (m.log2 + 1 + e - 53) (-1074) := rfl
  obtain ⟨a, ha⟩ : ∃ a, a = (e + 1200).toNat := ⟨_, rfl⟩
  rw [← ha]
  have hpos : 0 < 2 ^ a := Nat.two_pow_pos a
  rcases Int.lt_trichotomy (aim m e) 971 with hlt | heq | hgt
  · -- Everything is below the last power of two but one.
    have hbelow : m * 2 ^ a < (2 ^ 1024 - 2 ^ 970) * 2 ^ 1200 := by
      calc m * 2 ^ a < 2 ^ (m.log2 + 1) * 2 ^ a := Nat.mul_lt_mul_of_pos_right hhigh hpos
        _ = 2 ^ (m.log2 + 1 + a) := (Nat.pow_add ..).symm
        _ < (2 ^ 1024 - 2 ^ 970) * 2 ^ 1200 := two_pow_lt_limit (by omega)
    refine ⟨fun h => absurd h (Nat.not_le_of_lt hbelow), ?_⟩
    rintro (h | ⟨h, -⟩)
    · omega
    · omega
  · cases hn : (aim m e - e).toNat with
    | zero =>
        have hsmall : m < 2 ^ 53 := Nat.lt_of_lt_of_le hhigh (Nat.pow_le_pow_right (by omega) (by omega))
        have hbelow : m * 2 ^ a < (2 ^ 1024 - 2 ^ 970) * 2 ^ 1200 := by
          obtain ⟨b, hb⟩ : ∃ b, a = 1 + b := ⟨2170, by omega⟩
          rw [limit_eq (k := 0) (a := b) (by omega), two_pow_split hb, ← Nat.mul_assoc]
          exact Nat.mul_lt_mul_of_pos_right (by omega) (Nat.two_pow_pos b)
        refine ⟨fun h => absurd h (Nat.not_le_of_lt hbelow), ?_⟩
        rintro (h | ⟨-, k, hk, -⟩)
        · omega
        · omega
    | succ k =>
        have hsum : k + a = 2170 := by omega
        rw [limit_eq hsum, Nat.mul_le_mul_right_iff hpos]
        refine ⟨fun h => Or.inr ⟨heq, k, rfl, h⟩, ?_⟩
        rintro (h | ⟨-, l, hl, h⟩)
        · omega
        · obtain rfl : k = l := by omega
          exact h
  · refine ⟨fun _ => Or.inl (by omega), ?_⟩
    intro _
    calc (2 ^ 1024 - 2 ^ 970) * 2 ^ 1200 ≤ 2 ^ (m.log2 + a) := limit_le_two_pow (by omega)
      _ = 2 ^ m.log2 * 2 ^ a := Nat.pow_add ..
      _ ≤ m * 2 ^ a := Nat.mul_le_mul_right _ hlow

/-- **Rounding and the end of the range.**  A significand of at least fifty-three bits keeps
its sign, and leaves the range exactly from half a step above the greatest float on. -/
theorem round_spec (s : Sign) {m : Nat} {e : Int} (hm : 2 ^ 52 ≤ m) (he : -1200 ≤ e) :
    IsSigned s (roundWithAccuracy Format.binary64 s m e .exact)
    ∧ (Exceeds (roundWithAccuracy Format.binary64 s m e .exact)
      ↔ (2 ^ 1024 - 2 ^ 970) * 2 ^ 1200 ≤ m * 2 ^ (e + 1200).toNat) := by
  obtain ⟨em, hfirst, hle, hcarry, hzero⟩ := first_shift (e := e) hm
  have hmin : -1074 ≤ aim m e := Int.le_max_right _ _
  rw [round_eq s hfirst hmin hle, limit_le_iff hm he, ← hcarry]
  by_cases hz : em.roundedMantissa = 0
  · have hleast := hzero hz
    rw [dif_pos hz]
    refine ⟨rfl, ⟨False.elim, ?_⟩⟩
    rintro (h | ⟨h, -⟩)
    · omega
    · omega
  · by_cases hfull : em.roundedMantissa = 2 ^ 53
    · rw [dif_neg hz, if_pos hfull]
      refine ⟨rfl, ?_⟩
      show 972 ≤ aim m e + 1 ↔ _
      omega
    · rw [dif_neg hz, if_neg hfull]
      refine ⟨rfl, ?_⟩
      show 972 ≤ aim m e ↔ _
      omega

end PartProgram.Rounding
