/-
Reading a decimal as a float.

A decimal is turned into a float by one multiplication or one division, whose exact result is
the decimal, and rounding is to the nearest.  There are two ways to get there: small decimals
are the product or the quotient of two floats that are exact themselves, all others go through
whole numbers of any size.  On both the float that comes out attracts the decimal, and decimals
from half a step above the greatest float on have none.

The shortest decimal of a float is one that the float attracts, and no number is attracted by
two floats.  So the text of a float reads back as the float.
-/
import Mathlib
import PartProgram.Proofs.Nearest
import PartProgram.Proofs.NumberText

namespace PartProgram.Decimal

namespace Binary

open Float.Model Float.Model.UnpackedFloat PartProgram.Rounding

/-! ### Packing and unpacking -/

/-- The number that is packed into components. -/
theorem ofUnpacked?_packComponents (s : Sign) (e : BitVec 11) (m : BitVec 52) :
    ofUnpacked? (unpack Format.binary64 (packComponents Format.binary64 s e m)) =
      if e = -1#11 then none
      else if e = 0#11 then some ⟨s == .negative, m.toNat, -1074⟩
      else some ⟨s == .negative, m.toNat + 2 ^ 52, e.toNat - 1075⟩ := by
  unfold UnpackedFloat.unpack
  simp only [unpackSign_packComponents, unpackExponent_packComponents, unpackMantissa_packComponents,
    Sign.ofBitVec_toBitVec]
  by_cases htop : e = -1#11
  · rw [if_pos htop, if_pos htop]
    by_cases hm : m = 0#52
    · rw [if_pos hm]
      rfl
    · rw [if_neg hm]
      rfl
  · rw [if_neg htop, if_neg htop]
    by_cases hzero : e = 0#11
    · rw [if_pos hzero, if_pos hzero]
      by_cases hm : m = 0#52
      · rw [dif_pos hm, hm]
        rfl
      · rw [dif_neg hm, hzero]
        rfl
    · rw [if_neg hzero, if_neg hzero, ofUnpacked?_finite, toNat_implicit]
      rfl

variable {b c : Binary} {v : ℚ}

theorem exponent_of_few_bits (h : b.Normal) (hfew : b.significand < 2 ^ 52) : b.exponent = -1074 := by
  have hleast := h.least
  have hfull := h.full
  omega

/-- An exponent of the range, as it is packed. -/
theorem packedExponent_spec {e : Int} (hleast : -1074 ≤ e) (hmost : e < 972) :
    ((BitVec.ofNat 11 (e + (1023 : Nat) + (52 : Nat)).toNat).toNat : Int) = e + 1075
      ∧ BitVec.ofNat 11 (e + (1023 : Nat) + (52 : Nat)).toNat ≠ -1#11
      ∧ BitVec.ofNat 11 (e + (1023 : Nat) + (52 : Nat)).toNat ≠ 0#11 := by
  have hexponent : ((BitVec.ofNat 11 (e + (1023 : Nat) + (52 : Nat)).toNat).toNat : Int) = e + 1075 := by
    rw [BitVec.toNat_ofNat]
    omega
  refine ⟨hexponent, fun hall => ?_, fun hnone => ?_⟩
  · rw [hall, show ((-1#11).toNat : Int) = 2047 from rfl] at hexponent
    omega
  · rw [hnone, show ((0#11).toNat : Int) = 0 from rfl] at hexponent
    omega

/-- A number within the range is packed as it is, and one beyond the range as none. -/
theorem ofUnpacked?_pack {u : UnpackedFloat} (hu : ofUnpacked? u = some b) (hb : b.Normal) :
    ofUnpacked? (unpack Format.binary64 (UnpackedFloat.pack Format.binary64 u))
      = if 972 ≤ b.exponent then none else some b := by
  cases u with
  | infinity s => cases hu
  | notANumber => cases hu
  | zero s =>
      obtain rfl := Option.some.inj hu
      exact ofUnpacked?_packComponents s 0#11 0#52
  | finite s m e hm =>
      obtain rfl := Option.some.inj hu
      have hbits : m < 2 ^ 53 := hb.bits
      have hleast : -1074 ≤ e := hb.least
      rw [pack_finite]
      by_cases hlarge : 972 ≤ e
      · have hexceeds : 2048 ≤ (e + (1023 : Nat) + (52 : Nat)).toNat + 1 := by omega
        rw [if_pos hexceeds, if_pos hlarge, unpack_packedInfinity]
        rfl
      · have hfits : ¬ 2048 ≤ (e + (1023 : Nat) + (52 : Nat)).toNat + 1 := by omega
        rw [if_neg hfits, if_neg hlarge]
        by_cases hfull : m.log2 + 1 = 53
        · have hpower : 2 ^ 52 ≤ m := by
            have hlow := Nat.log2_self_le hm.ne'
            rwa [show m.log2 = 52 by omega] at hlow
          obtain ⟨hexponent, hall, hnone⟩ := packedExponent_spec hleast (Int.not_le.mp hlarge)
          rw [if_pos hfull]
          refine (ofUnpacked?_packComponents s _ _).trans ?_
          rw [if_neg hall, if_neg hnone, hexponent, BitVec.toNat_ofNat, Option.some.injEq, Binary.mk.injEq]
          refine ⟨rfl, ?_, ?_⟩
          · omega
          · omega
        · have hfew : m < 2 ^ 52 := by
            have hhigh : m < 2 ^ (m.log2 + 1) := Nat.lt_log2_self
            have hlog : m.log2 < 53 := (Nat.log2_lt hm.ne').mpr hbits
            exact Nat.lt_of_lt_of_le hhigh (Nat.pow_le_pow_right Nat.two_pos (by omega))
          have hexponent : e = -1074 := exponent_of_few_bits hb hfew
          rw [if_neg hfull]
          refine (ofUnpacked?_packComponents s _ _).trans ?_
          rw [if_neg (by decide), if_pos rfl, BitVec.toNat_ofNat, Nat.mod_eq_of_lt hfew, hexponent]

/-! ### The nearest float

A decimal beyond the end of the range has no float, and none attracts it.  So a float is nearest
to a number where it attracts the number, or where it stands for no number itself and the number
is at least half a step above the greatest float.
-/

/-- Where the numbers that round to a float end, half a step above the greatest float. -/
def rangeEnd : ℚ := (2 : ℚ) ^ 1024 - (2 : ℚ) ^ 970

/-- The float that a number rounds to: it attracts the number, or else is none and the number lies beyond the range. -/
def IsNearest (x : Float) (negative : Bool) (v : ℚ) : Prop :=
  match ofFloat? x with
  | some b => b.negative = negative ∧ b.Attracts v
  | none => rangeEnd ≤ v

theorem normal_of_ofFloat {x : Float} (h : ofFloat? x = some b) : b.Normal ∧ b.exponent ≤ 971 := by
  obtain ⟨hbits, hmin, hmax⟩ := bounds_of_ofFloat h
  refine ⟨⟨hbits, hmin, ?_⟩, hmax⟩
  intro hlt
  unfold ofFloat? ofBits? at h
  dsimp only at h
  split at h
  · cases h
  · split at h
    · obtain rfl := Option.some.inj h
      exact absurd hlt (lt_irrefl _)
    · obtain rfl := Option.some.inj h
      exact Nat.le_add_left ..

/-- The first float beyond the range, if there were larger exponents. -/
def beyond : Binary := ⟨false, 2 ^ 52, 972⟩

theorem normal_beyond : beyond.Normal := ⟨by decide, by decide, fun _ => le_refl _⟩

theorem rangeEnd_eq : rangeEnd = beyond.quarters beyond.lowerEnd := by
  have hpower : (2 : ℚ) ^ 1024 = 2 ^ 54 * 2 ^ 970 := by rw [← pow_add]
  have hscale : (2 : ℚ) ^ (972 : Int) = 4 * 2 ^ 970 := by
    rw [show (972 : Int) = 2 + (970 : Nat) by decide, zpow_add₀ (by norm_num), zpow_natCast]
    norm_num
  rw [quarters, show beyond.lowerEnd = 2 ^ 54 - 1 from rfl, show beyond.exponent = 972 from rfl, rangeEnd, hpower,
    hscale]
  generalize (2 : ℚ) ^ 970 = p
  norm_num
  ring

/-- The floats beyond the range would attract only what is beyond its end. -/
theorem rangeEnd_le_of_attracts (hb : b.Normal) (hlarge : 972 ≤ b.exponent) (h : b.Attracts v) : rangeEnd ≤ v := by
  have hfull := hb.full (by omega)
  refine le_trans ?_ h.low
  rw [rangeEnd_eq]
  by_cases hfirst : b.exponent = 972 ∧ b.significand = 2 ^ 52
  · obtain ⟨negative, m, e⟩ := b
    obtain ⟨rfl, rfl⟩ := hfirst
    exact le_refl _
  · have hbefore : beyond.Before b := by
      show 972 < b.exponent ∨ (972 = b.exponent ∧ 2 ^ 52 < b.significand)
      omega
    have hends := beyond.magnitude_between
    exact (hends.1.trans hends.2).trans (upperEnd_le_lowerEnd normal_beyond hb hbefore).1

/-- What a float attracts is within the range. -/
theorem lt_rangeEnd_of_attracts (hb : b.Normal) (hmax : b.exponent ≤ 971) (h : b.Attracts v) : v < rangeEnd := by
  obtain ⟨hle, hmeet⟩ := upperEnd_le_lowerEnd hb normal_beyond (Or.inl (Int.lt_add_one_of_le hmax))
  rw [rangeEnd_eq]
  by_cases hodd : b.significand % 2 = 1
  · exact (h.odd hodd).2.trans_le hle
  · refine h.high.trans_lt (lt_of_le_of_ne hle fun heq => ?_)
    rcases hmeet heq with hb' | hbeyond
    · exact hodd hb'
    · exact absurd hbeyond (by decide)

/-- What arithmetic rounds and packs is nearest to its exact result. -/
theorem isNearest_of_pack {x : Float} {u : UnpackedFloat} {negative : Bool}
    (hx : x.toModel.unpack = unpack Format.binary64 (UnpackedFloat.pack Format.binary64 u))
    (hu : ∃ b, ofUnpacked? u = some b ∧ b.negative = negative ∧ b.Normal ∧ b.Attracts v) : IsNearest x negative v := by
  obtain ⟨b, hu, hsign, hb, hv⟩ := hu
  unfold IsNearest
  rw [ofFloat?_eq, hx, ofUnpacked?_pack hu hb]
  by_cases hlarge : 972 ≤ b.exponent
  · rw [if_pos hlarge]
    exact rangeEnd_le_of_attracts hb hlarge hv
  · rw [if_neg hlarge]
    exact ⟨hsign, hv⟩

/-! ### Products and quotients

A product of significands is exact and a quotient is not, but what is left of it goes into the
bits below, and with these it stands for the exact quotient.  In both cases there are enough
bits to round, because the significands had them to begin with.
-/

theorem attracts_mul {m n : Nat} (hm : 0 < m) (hn : 0 < n) {d e : Int} (h : 2 ^ 52 ≤ m * n ∨ d + e ≤ -1074) :
    ∃ b, ofUnpacked? (UnpackedFloat.mul Format.binary64 (.finite .positive m d hm) (.finite .positive n e hn)) = some b
      ∧ b.negative = false ∧ b.Normal ∧ b.Attracts (m * 2 ^ d * (n * 2 ^ e)) := by
  obtain ⟨b, hb, hsign, hnormal, hv⟩ := attracts_roundWithAccuracy .positive (standsFor_exact (m * n)) h
  refine ⟨b, hb, hsign, hnormal, ?_⟩
  have hproduct : (m : ℚ) * 2 ^ d * (n * 2 ^ e) = (m * n : Nat) * 2 ^ (d + e) := by
    rw [zpow_add₀ (by norm_num)]
    push_cast
    ring
  rw [hproduct]
  exact hv

/-- A division goes on until it has as many bits as a float can hold, or has reached the least exponent. -/
theorem divCore_spec {m n : Nat} (hm : 0 < m) (hn : 0 < n) (d e : Int) :
    ∃ k : Nat, ∃ t : Int, t = d - e - k ∧ divCore Format.binary64 m d n e
        = (m * 2 ^ k / n, t, accuracyOfFraction (m * 2 ^ k % n) n)
      ∧ (2 ^ 52 ≤ m * 2 ^ k / n ∨ t ≤ -1074) := by
  obtain ⟨t, ht⟩ : ∃ t : Int, t = min (d - e) (max (m.log2 + 1 + d - (n.log2 + 1 + e) - 53) (-1074)) := ⟨_, rfl⟩
  have hle : t ≤ d - e := ht ▸ min_le_left _ _
  refine ⟨(d - e - t).toNat, t, by omega, ?_, ?_⟩
  · unfold divCore
    rw [show min (d - e) (Format.binary64.targetExponent (totalExponent m d - totalExponent n e)) = t from ht.symm]
    dsimp only
    rw [Nat.shiftLeft_eq]
  · by_cases hleast : t ≤ -1074
    · exact Or.inr hleast
    · left
      have hlow : 2 ^ m.log2 ≤ m := Nat.log2_self_le hm.ne'
      have hhigh : n < 2 ^ (n.log2 + 1) := Nat.lt_log2_self
      rw [Nat.le_div_iff_mul_le hn]
      calc 2 ^ 52 * n ≤ 2 ^ 52 * 2 ^ (n.log2 + 1) := Nat.mul_le_mul_left _ hhigh.le
        _ = 2 ^ (52 + (n.log2 + 1)) := (Nat.pow_add ..).symm
        _ ≤ 2 ^ (m.log2 + (d - e - t).toNat) := Nat.pow_le_pow_right Nat.two_pos (by omega)
        _ = 2 ^ m.log2 * 2 ^ (d - e - t).toNat := Nat.pow_add ..
        _ ≤ m * 2 ^ (d - e - t).toNat := Nat.mul_le_mul_right _ hlow

theorem attracts_div {m n : Nat} (hm : 0 < m) (hn : 0 < n) (d e : Int) :
    ∃ b, ofUnpacked? (UnpackedFloat.div Format.binary64 (.finite .positive m d hm) (.finite .positive n e hn)) = some b
      ∧ b.negative = false ∧ b.Normal ∧ b.Attracts (m * 2 ^ d / (n * 2 ^ e)) := by
  obtain ⟨k, t, ht, hcore, hbits⟩ := divCore_spec hm hn d e
  obtain ⟨b, hb, hsign, hnormal, hv⟩ := attracts_roundWithAccuracy .positive (standsFor_quotient hn (m * 2 ^ k)) hbits
  refine ⟨b, ?_, hsign, hnormal, ?_⟩
  · rw [← hb]
    show ofUnpacked? (roundWithAccuracy Format.binary64 (.positive / .positive) (divCore Format.binary64 m d n e).1
      (divCore Format.binary64 m d n e).2.1 (divCore Format.binary64 m d n e).2.2) = _
    rw [hcore]
    rfl
  · have hquotient : (m : ℚ) * 2 ^ d / (n * 2 ^ e) = (m * 2 ^ k : Nat) / n * 2 ^ t := by
      have hpos : (n : ℚ) ≠ 0 := by exact_mod_cast hn.ne'
      rw [ht, zpow_sub₀ (by norm_num), zpow_sub₀ (by norm_num), zpow_natCast]
      push_cast
      field_simp
    rw [hquotient]
    exact hv

variable {x y : Float}

/-- A float that is a positive number, as the arithmetic of floats sees it. -/
theorem exists_unpack_of_pos (h : ofFloat? x = some b) (hsign : b.negative = false) (hpos : 0 < b.significand) :
    ∃ hm, x.toModel.unpack = .finite .positive b.significand b.exponent hm := by
  rw [ofFloat?_eq] at h
  cases hu : x.toModel.unpack with
  | infinity s => rw [hu] at h; cases h
  | notANumber => rw [hu] at h; cases h
  | zero s =>
      rw [hu] at h
      obtain rfl := Option.some.inj h
      exact absurd hpos (lt_irrefl _)
  | finite s m e hm =>
      rw [hu] at h
      obtain rfl := Option.some.inj h
      cases s with
      | negative => cases hsign
      | positive => exact ⟨hm, rfl⟩

theorem isNearest_mul (hx : ofFloat? x = some b) (hb : b.negative = false) (hpos : 0 < b.significand)
    (hy : ofFloat? y = some c) (hc : c.negative = false) (hlarge : 2 ^ 52 ≤ c.significand) :
    IsNearest (x * y) false (b.magnitude * c.magnitude) := by
  obtain ⟨hm, hux⟩ := exists_unpack_of_pos hx hb hpos
  obtain ⟨hn, huy⟩ := exists_unpack_of_pos hy hc (by omega)
  refine isNearest_of_pack (toModel_mul x y) ?_
  rw [hux, huy]
  exact attracts_mul hm hn (Or.inl (Nat.le_trans hlarge (Nat.le_mul_of_pos_left _ hpos)))

theorem isNearest_div (hx : ofFloat? x = some b) (hb : b.negative = false) (hpos : 0 < b.significand)
    (hy : ofFloat? y = some c) (hc : c.negative = false) (hlarge : 0 < c.significand) :
    IsNearest (x / y) false (b.magnitude / c.magnitude) := by
  obtain ⟨hm, hux⟩ := exists_unpack_of_pos hx hb hpos
  obtain ⟨hn, huy⟩ := exists_unpack_of_pos hy hc hlarge
  refine isNearest_of_pack (u := UnpackedFloat.div Format.binary64 x.toModel.unpack y.toModel.unpack) rfl ?_
  rw [hux, huy]
  exact attracts_div hm hn _ _

/-! ### From decimals to floats

There are two ways from a decimal to a float.  The short one needs a coefficient and a power of
ten that are floats themselves, and then one operation rounds once.  The long one works on
integers as large as they come.  In both the result is one product or quotient, and so nothing
is rounded twice.
-/

/-- A whole number of at most fifty-three bits, as a float with just as many of them. -/
theorem exists_normal_of_small {m : Nat} (hpos : 0 < m) (hm : m < 2 ^ 53) :
    ∃ k : Nat, (k : Int) = 52 - m.log2 ∧ 2 ^ 52 ≤ m * 2 ^ k ∧ m * 2 ^ k < 2 ^ 53 := by
  have hlog : m.log2 < 53 := (Nat.log2_lt hpos.ne').mpr hm
  have hlow : 2 ^ m.log2 ≤ m := Nat.log2_self_le hpos.ne'
  have hhigh : m < 2 ^ (m.log2 + 1) := Nat.lt_log2_self
  refine ⟨52 - m.log2, by omega, ?_, ?_⟩
  · calc 2 ^ 52 = 2 ^ m.log2 * 2 ^ (52 - m.log2) := by rw [← Nat.pow_add]; congr 1; omega
      _ ≤ m * 2 ^ (52 - m.log2) := Nat.mul_le_mul_right _ hlow
  · calc m * 2 ^ (52 - m.log2) < 2 ^ (m.log2 + 1) * 2 ^ (52 - m.log2) :=
          Nat.mul_lt_mul_of_pos_right hhigh (Nat.two_pow_pos _)
      _ = 2 ^ 53 := by rw [← Nat.pow_add]; congr 1; omega

/-- Whole numbers of at most fifty-three bits are floats. -/
theorem ofFloat?_toFloat_of_small {m : Nat} (hpos : 0 < m) (hm : m < 2 ^ 53) :
    ∃ b, ofFloat? m.toUInt64.toFloat = some b ∧ b.negative = false ∧ b.magnitude = m ∧ 0 < b.significand := by
  obtain ⟨k, hk, hlow, hhigh⟩ := exists_normal_of_small hpos hm
  have hnat : m.toUInt64.toNat = m := by
    show m % 2 ^ 64 = m
    omega
  have hunpacked : UnpackedFloat.ofUInt64 Format.binary64 m.toUInt64
      = roundWithAccuracy Format.binary64 .positive (m * 2 ^ k) (-k) .exact := by
    have hgreater : compare (m : Int) 0 = .gt := compare_gt_iff_gt.mpr (by omega)
    have hshift : (0 - Format.binary64.targetExponent (totalExponent m 0)).toNat = k := by
      show (0 - max ((m.log2 : Int) + 1 + 0 - 53) (-1074)).toNat = k
      omega
    unfold UnpackedFloat.ofUInt64 UnpackedFloat.ofNat UnpackedFloat.ofInt UnpackedFloat.normalize
    rw [hnat, hgreater]
    unfold UnpackedFloat.round UnpackedFloat.decreaseExponent
    dsimp only
    rw [Int.toNat_natCast, hshift, Nat.shiftLeft_eq, zero_sub]
  let c : Binary := ⟨false, m * 2 ^ k, -k⟩
  have hc : c.Normal := ⟨hhigh, show -1074 ≤ -(k : Int) by omega, fun _ => hlow⟩
  have hmagnitude : c.magnitude = m := by
    show ((m * 2 ^ k : Nat) : ℚ) * 2 ^ (-(k : Int)) = m
    rw [zpow_neg, zpow_natCast]
    push_cast
    rw [mul_assoc, mul_inv_cancel₀ (by positivity), mul_one]
  obtain ⟨b, hb, hsign, hnormal, hv⟩ := attracts_roundWithAccuracy .positive (standsFor_exact (m * 2 ^ k)) (Or.inl hlow)
    (e := -k)
  obtain rfl : b = c := hv.unique hnormal hc (attracts_magnitude c) hsign
  refine ⟨c, ?_, rfl, hmagnitude, Nat.lt_of_lt_of_le (Nat.two_pow_pos 52) hlow⟩
  have hpacked := ofUnpacked?_pack (hunpacked ▸ hb) hnormal
  rw [if_neg (show ¬ 972 ≤ -(k : Int) by omega)] at hpacked
  exact (ofFloat?_eq _).trans hpacked

theorem powersOfTen_eq : ∀ i : Fin Float.exactlyRepresentablePowersOfTen.size,
    (ofFloat? Float.exactlyRepresentablePowersOfTen[i]).any (fun c => !c.negative && decide (2 ^ 52 ≤ c.significand)
      && decide (c.ratio.1 = 10 ^ i.1 * c.ratio.2)) = true := by
  decide +kernel

/-- The powers of ten that are kept ready are floats. -/
theorem ofFloat?_powerOfTen {e : Nat} (h : e < Float.exactlyRepresentablePowersOfTen.size) :
    ∃ c, ofFloat? Float.exactlyRepresentablePowersOfTen[e] = some c ∧ c.negative = false ∧ c.magnitude = 10 ^ e
      ∧ 2 ^ 52 ≤ c.significand := by
  have hone := powersOfTen_eq ⟨e, h⟩
  obtain ⟨c, hc, hfacts⟩ := (Option.any_eq_true _ _).mp hone
  simp only [Bool.and_eq_true, Bool.not_eq_true', decide_eq_true_eq] at hfacts
  obtain ⟨⟨hsign, hbits⟩, hratio⟩ := hfacts
  refine ⟨c, hc, hsign, ?_, hbits⟩
  have hpos : (0 : ℚ) < c.ratio.2 := by exact_mod_cast c.ratio_pos
  rw [magnitude_eq, div_eq_iff hpos.ne']
  exact_mod_cast hratio

/-- A product or a quotient of whole numbers, in the arithmetic of floats of any size. -/
theorem attracts_ofScientific {m : Nat} (hpos : 0 < m) {e : Int} (hlow : -(2 ^ 11 + m.log2 : Int) ≤ e)
    (hhigh : e ≤ 2 ^ 11) :
    ∃ b, ofUnpacked? (UnpackedFloat.ofScientific Format.binary64 m e) = some b
      ∧ b.negative = false ∧ b.Normal ∧ b.Attracts (m * 10 ^ e) := by
  have htop : ¬ e > 2 ^ Format.binary64.exponentBits := Int.not_lt.mpr hhigh
  have hbottom : ¬ e < -((2 ^ Format.binary64.exponentBits : Int) + m.log2) := Int.not_lt.mpr hlow
  unfold UnpackedFloat.ofScientific
  rw [dif_neg hpos.ne', if_neg htop, if_neg hbottom]
  by_cases hnonneg : 0 ≤ e
  · have hten : 0 < 10 ^ e.toNat := Nat.pow_pos (by decide)
    have hshifted : 0 < m <<< 53 := by
      rw [Nat.shiftLeft_eq]
      exact Nat.mul_pos hpos (Nat.two_pow_pos _)
    have hbits : 2 ^ 52 ≤ m <<< 53 * 10 ^ e.toNat := by
      rw [Nat.shiftLeft_eq]
      calc 2 ^ 52 ≤ m * 2 ^ 53 := by omega
        _ ≤ m * 2 ^ 53 * 10 ^ e.toNat := Nat.le_mul_of_pos_right _ hten
    have hvalue : (m : ℚ) * (10 : ℚ) ^ e
        = (m <<< 53 : Nat) * 2 ^ (-53 : Int) * ((10 ^ e.toNat : Nat) * 2 ^ (0 : Int)) := by
      rw [Nat.shiftLeft_eq, ← Int.toNat_of_nonneg hnonneg, zpow_natCast, Int.toNat_natCast]
      push_cast
      norm_num
      ring
    rw [if_pos hnonneg, hvalue]
    exact attracts_mul hshifted hten (Or.inl hbits)
  · have hten : 0 < 10 ^ (-e).toNat := Nat.pow_pos (by decide)
    have hvalue : (m : ℚ) * (10 : ℚ) ^ e = m * 2 ^ (0 : Int) / ((10 ^ (-e).toNat : Nat) * 2 ^ (0 : Int)) := by
      obtain ⟨k, rfl⟩ : ∃ k : Nat, e = -k := ⟨(-e).toNat, by omega⟩
      rw [neg_neg, Int.toNat_natCast, zpow_neg, zpow_natCast, zpow_zero, mul_one, mul_one, Nat.cast_pow, div_eq_mul_inv]
      rfl
    rw [if_neg hnonneg, hvalue]
    exact attracts_div hpos hten 0 0

/-- **Decimals are read as the nearest float**, as long as the power of ten is within reach. -/
theorem isNearest_ofScientific {m n : Nat} (hpos : 0 < m) (negative : Bool)
    (hreach : n ≤ 2 ^ 11 + if negative then m.log2 else 0) :
    IsNearest (Float.ofScientific m negative n) false (m * 10 ^ (if negative then -(n : Int) else n)) := by
  unfold Float.ofScientific
  split
  · rename_i hsmall
    obtain ⟨b, hb, hsign, hmagnitude, hbits⟩ := ofFloat?_toFloat_of_small hpos hsmall.1
    obtain ⟨c, hc, hcsign, hcmagnitude, hcbits⟩ := ofFloat?_powerOfTen
      (show n < Float.exactlyRepresentablePowersOfTen.size from Nat.lt_succ_of_le hsmall.2)
    cases negative with
    | true =>
        have hquotient := isNearest_div hb hsign hbits hc hcsign (Nat.lt_of_lt_of_le (Nat.two_pow_pos 52) hcbits)
        rw [hmagnitude, hcmagnitude, div_eq_mul_inv, ← zpow_natCast, ← zpow_neg] at hquotient
        exact hquotient
    | false =>
        have hproduct := isNearest_mul hb hsign hbits hc hcsign hcbits
        rw [hmagnitude, hcmagnitude, ← zpow_natCast] at hproduct
        exact hproduct
  · cases negative with
    | true =>
        rw [if_pos rfl] at hreach ⊢
        have hneg : Int.negOfNat n = -(n : Int) := Int.negOfNat_eq
        refine isNearest_of_pack rfl (attracts_ofScientific hpos ?_ ?_)
        · show -(2 ^ 11 + m.log2 : Int) ≤ Int.negOfNat n
          rw [hneg]
          omega
        · show Int.negOfNat n ≤ 2 ^ 11
          rw [hneg]
          omega
    | false =>
        rw [if_neg Bool.false_ne_true] at hreach ⊢
        refine isNearest_of_pack rfl (attracts_ofScientific hpos ?_ ?_)
        · show -(2 ^ 11 + m.log2 : Int) ≤ n
          omega
        · show (n : Int) ≤ 2 ^ 11
          omega

/-! ### The ends of the range -/

/-- The numbers that round to zero are those of at most half a step of the least float. -/
theorem attracts_zero_iff (negative : Bool) :
    (Binary.mk negative 0 (-1074)).Attracts v ↔ 0 ≤ v ∧ v ≤ 2 ^ (-1075 : Int) := by
  have hlow : (Binary.mk negative 0 (-1074)).quarters (Binary.mk negative 0 (-1074)).lowerEnd = 0 := by
    simp [quarters, lowerEnd]
  have hhigh : (Binary.mk negative 0 (-1074)).quarters (Binary.mk negative 0 (-1074)).upperEnd = 2 ^ (-1075 : Int) := by
    rw [quarters_upperEnd, magnitude]
    show ((0 : Nat) : ℚ) * _ + 2 ^ (-1074 : Int) / 2 = _
    rw [show (-1075 : Int) = -1074 - 1 by decide, zpow_sub_one₀ (by norm_num)]
    generalize (2 : ℚ) ^ (-1074 : Int) = p
    push_cast
    ring
  constructor
  · intro h
    exact ⟨hlow ▸ h.low, hhigh ▸ h.high⟩
  · intro h
    exact ⟨hlow.le.trans h.1, h.2.trans hhigh.ge, fun hodd => absurd (show 0 % 2 = 1 from hodd) (by decide)⟩

/-- The numbers that round to one are those within half a step of it, a step below one being half a step above. -/
theorem attracts_one_iff (negative : Bool) : (Binary.mk negative (2 ^ 52) (-52)).Attracts v
    ↔ 1 - 2 ^ (-54 : Int) ≤ v ∧ v ≤ 1 + 2 ^ (-53 : Int) := by
  have hlow : (Binary.mk negative (2 ^ 52) (-52)).quarters (Binary.mk negative (2 ^ 52) (-52)).lowerEnd
      = 1 - 2 ^ (-54 : Int) := by
    show ((4 * 2 ^ 52 - 1 : Nat) : ℚ) / 4 * 2 ^ (-52 : Int) = _
    norm_num
  have hhigh : (Binary.mk negative (2 ^ 52) (-52)).quarters (Binary.mk negative (2 ^ 52) (-52)).upperEnd
      = 1 + 2 ^ (-53 : Int) := by
    show ((4 * 2 ^ 52 + 2 : Nat) : ℚ) / 4 * 2 ^ (-52 : Int) = _
    norm_num
  constructor
  · intro h
    exact ⟨hlow ▸ h.low, hhigh ▸ h.high⟩
  · intro h
    exact ⟨hlow.le.trans h.1, h.2.trans hhigh.ge, fun hodd => absurd (show 2 ^ 52 % 2 = 1 from hodd) (by decide)⟩

end Binary

/-! ### Decimals of any size

Far outside of the range nothing is computed, and the float is zero or an infinity by the size
of the power of ten alone.  The bounds there are generous, so it is enough to know where the
first digit of the decimal is.
-/

/-- The place of the point says how large a decimal is. -/
theorem Scaled.value_bounds {s : Scaled} (hpos : 0 < s.coefficient) :
    (10 : ℚ) ^ ((digitChars s.coefficient).length + s.exponent - 1) ≤ s.value
      ∧ s.value < 10 ^ ((digitChars s.coefficient).length + s.exponent) := by
  obtain ⟨hlow, hhigh⟩ := Binary.digitCount_spec hpos
  have hcount : 0 < (digitChars s.coefficient).length := Nat.length_toDigits_pos
  have hgrid := Binary.ten_zpow_pos s.exponent
  generalize (digitChars s.coefficient).length = count at hlow hhigh hcount
  rw [show (count : Int) + s.exponent - 1 = (count - 1 : Nat) + s.exponent by omega, zpow_add₀ (by norm_num),
    zpow_add₀ (by norm_num), zpow_natCast, zpow_natCast, value]
  constructor
  · exact mul_le_mul_of_nonneg_right (by exact_mod_cast hlow) hgrid.le
  · exact mul_lt_mul_of_pos_right (by exact_mod_cast hhigh) hgrid

/-- A decimal has no more digits than bits. -/
theorem length_digitChars_le_log2 {n : Nat} (hpos : 0 < n) : (digitChars n).length ≤ n.log2 + 1 := by
  obtain ⟨hlow, -⟩ := Binary.digitCount_spec hpos
  have hbits : (digitChars n).length - 1 ≤ n.log2 := by
    rw [Nat.le_log2 hpos.ne']
    exact Nat.le_trans (Nat.pow_le_pow_left (by decide) _) hlow
  omega

theorem two_pow_le_ten_pow {m n : Nat} (h : 2 ^ m ≤ 10 ^ n) : (2 : ℚ) ^ m ≤ 10 ^ n := by exact_mod_cast h

theorem ten_zpow_le_two_zpow {m n : Nat} (h : 2 ^ m ≤ 10 ^ n) : (10 : ℚ) ^ (-n : Int) ≤ 2 ^ (-m : Int) := by
  rw [zpow_neg, zpow_neg, zpow_natCast, zpow_natCast]
  exact inv_anti₀ (by positivity) (two_pow_le_ten_pow h)

namespace Binary

variable {v : ℚ}

/-- The float zero is nearest to what is less than the least decimals. -/
theorem isNearest_zero (h : 0 ≤ v) (hless : v ≤ 10 ^ (-401 : Int)) : IsNearest 0.0 false v := by
  have hzero : ofFloat? 0.0 = some ⟨false, 0, -1074⟩ := by decide +kernel
  have hleast : (10 : ℚ) ^ (-401 : Int) ≤ 2 ^ (-1075 : Int) :=
    ten_zpow_le_two_zpow (m := 1075) (n := 401) (by decide +kernel)
  rw [IsNearest, hzero]
  exact ⟨rfl, (attracts_zero_iff false).mpr ⟨h, hless.trans hleast⟩⟩

/-- No float is nearest to what is more than the greatest decimals. -/
theorem isNearest_infinity (h : 10 ^ (400 : Int) ≤ v) : IsNearest (1.0 / 0.0) false v := by
  have hnone : ofFloat? (1.0 / 0.0) = none := by decide +kernel
  have hnat : (2 : ℚ) ^ 1024 ≤ 10 ^ 400 := two_pow_le_ten_pow (by decide +kernel)
  have hstep : (0 : ℚ) ≤ 2 ^ 970 := pow_nonneg (by norm_num) _
  rw [IsNearest, hnone]
  exact (sub_le_self _ hstep).trans (hnat.trans h)

end Binary

open Binary in
/-- **Every decimal is read as the nearest float.** -/
theorem Scaled.isNearest_toFloat (s : Scaled) : IsNearest s.toFloat false s.value := by
  obtain ⟨place, hplace⟩ : ∃ place, place = (digitChars s.coefficient).length + s.exponent := ⟨_, rfl⟩
  unfold toFloat
  dsimp only
  rw [← hplace]
  by_cases hcoefficient : s.coefficient = 0
  · rw [if_pos (Or.inl hcoefficient), value, hcoefficient, Nat.cast_zero, zero_mul]
    exact isNearest_zero (le_refl _) (ten_zpow_pos _).le
  · have hpos : 0 < s.coefficient := Nat.pos_of_ne_zero hcoefficient
    obtain ⟨hlow, hhigh⟩ := value_bounds hpos
    rw [← hplace] at hlow hhigh
    by_cases hfew : place < -400
    · rw [if_pos (Or.inr hfew)]
      refine isNearest_zero ((ten_zpow_pos _).le.trans hlow) (hhigh.le.trans (zpow_le_zpow_right₀ (by norm_num) ?_))
      omega
    · rw [if_neg (not_or.mpr ⟨hcoefficient, hfew⟩)]
      by_cases hmany : 400 < place
      · rw [if_pos hmany]
        refine isNearest_infinity (le_trans (zpow_le_zpow_right₀ (by norm_num) ?_) hlow)
        omega
      · rw [if_neg hmany]
        have hdigits := length_digitChars_le_log2 hpos
        have hcount : 0 < (digitChars s.coefficient).length := Nat.length_toDigits_pos
        have hexponent : s.exponent
            = if decide (s.exponent < 0) then -(s.exponent.natAbs : Int) else s.exponent.natAbs := by
          by_cases hneg : s.exponent < 0
          · rw [if_pos (decide_eq_true hneg)]
            omega
          · rw [if_neg (mt of_decide_eq_true hneg)]
            omega
        have hreach : s.exponent.natAbs ≤ 2 ^ 11 + if decide (s.exponent < 0) then s.coefficient.log2 else 0 := by
          by_cases hneg : s.exponent < 0
          · rw [if_pos (decide_eq_true hneg)]
            omega
          · rw [if_neg (mt of_decide_eq_true hneg)]
            omega
        have hnear := isNearest_ofScientific hpos _ hreach
        rwa [← hexponent] at hnear

/-! ### Floats and their texts

The sign is split off before a text is read as a magnitude, and put back on the float.  With
that a float is read back from either layout: the text denotes the shortest decimal, the float
attracts it, and what is read attracts it too.
-/

namespace Binary

variable {b : Binary} {x : Float} {v : ℚ}

open Float.Model Float.Model.UnpackedFloat

/-- The same magnitude with the given sign. -/
def withSign (negative : Bool) (b : Binary) : Binary := { b with negative := negative }

theorem Normal.withSign (h : b.Normal) (negative : Bool) : (b.withSign negative).Normal := ⟨h.bits, h.least, h.full⟩

theorem Attracts.withSign (h : b.Attracts v) (negative : Bool) : (b.withSign negative).Attracts v :=
  ⟨h.low, h.high, h.odd⟩

/-- Changing the sign of a float changes the sign of the number. -/
theorem ofFloat?_neg (x : Float) : ofFloat? (-x) = (ofFloat? x).map fun b => b.withSign !b.negative := by
  have hneg : (-x).toModel.unpack
      = unpack Format.binary64 (UnpackedFloat.pack Format.binary64 x.toModel.unpack.neg) := rfl
  cases hx : ofFloat? x with
  | none =>
      rw [ofFloat?_eq] at hx ⊢
      rw [hneg]
      cases hu : x.toModel.unpack with
      | infinity s => cases s <;> rfl
      | notANumber => rfl
      | zero s => rw [hu] at hx; cases hx
      | finite s m e hm => rw [hu] at hx; cases hx
  | some b =>
      obtain ⟨hb, hmax⟩ := normal_of_ofFloat hx
      have hflip : ofUnpacked? x.toModel.unpack.neg = some (b.withSign !b.negative) := by
        rw [ofFloat?_eq] at hx
        cases hu : x.toModel.unpack with
        | infinity s => rw [hu] at hx; cases hx
        | notANumber => rw [hu] at hx; cases hx
        | zero s =>
            rw [hu] at hx
            obtain rfl := Option.some.inj hx
            cases s <;> rfl
        | finite s m e hm =>
            rw [hu] at hx
            obtain rfl := Option.some.inj hx
            cases s <;> rfl
      have hwithin : ¬ 972 ≤ (b.withSign !b.negative).exponent := Int.not_le.mpr (Int.lt_add_one_of_le hmax)
      rw [ofFloat?_eq, hneg, ofUnpacked?_pack hflip (hb.withSign _), if_neg hwithin]
      rfl

theorem IsNearest.neg (h : IsNearest x false v) : IsNearest (-x) true v := by
  unfold IsNearest at h ⊢
  rw [ofFloat?_neg]
  cases hx : ofFloat? x with
  | none =>
      rw [hx] at h
      exact h
  | some b =>
      rw [hx] at h
      obtain ⟨hsign, hv⟩ := h
      refine ⟨?_, hv.withSign _⟩
      show (!b.negative) = true
      rw [hsign]
      rfl

/-- A numeral denotes the float that is nearest to it. -/
theorem isNearest_numeral (negative : Bool) (s : Scaled) :
    IsNearest (Numeral.finite negative s).toFloat negative s.value := by
  cases negative with
  | true => exact s.isNearest_toFloat.neg
  | false => exact s.isNearest_toFloat

/-- The nearest float is the one that attracts the number. -/
theorem IsNearest.ofFloat? {negative : Bool} (h : IsNearest x negative v) (hb : b.Normal) (hmax : b.exponent ≤ 971)
    (hv : b.Attracts v) : ofFloat? x = some (b.withSign negative) := by
  unfold IsNearest at h
  cases hx : Binary.ofFloat? x with
  | none =>
      rw [hx] at h
      exact absurd (lt_rangeEnd_of_attracts hb hmax hv) (not_lt.mpr h)
  | some c =>
      rw [hx] at h
      obtain ⟨hsign, hc⟩ := h
      rw [hc.unique (normal_of_ofFloat hx).1 (hb.withSign negative) (hv.withSign negative) hsign]

end Binary

/-- A magnitude behind a sign is read with that sign. -/
theorem exists_read?_of_spells {text : String} {q : ℚ} (h : Spells text.toList q) (negative : Bool) :
    ∃ s : Scaled, Numeral.read? (signText negative ++ text).toList = some (.finite negative s) ∧ s.value = q := by
  obtain ⟨s, hs, hq⟩ := h.value
  refine ⟨s, ?_, hq⟩
  rw [String.toList_append, read?_magnitude h.digit, hs]
  rfl

open Binary in
/-- **The text of a float reads back as the float.** -/
theorem exists_read?_naturalText {x : Float} {b : Binary} (h : ofFloat? x = some b) :
    ∃ n, Numeral.read? (naturalText x).toList = some n ∧ ofFloat? n.toFloat = some b := by
  obtain ⟨hb, hmax⟩ := normal_of_ofFloat h
  obtain ⟨s, hs, hvalue⟩ := exists_read?_of_spells b.shortest.spells_text b.negative
  refine ⟨.finite b.negative s, ?_, ?_⟩
  · rw [naturalText, h]
    exact hs
  · have hattracts : b.Attracts s.value := by
      rw [hvalue]
      by_cases hzero : b.significand = 0
      · have hshortest : b.shortest = ⟨0, 0⟩ := by rw [shortest, if_pos hzero]
        have hmagnitude : b.magnitude = b.shortest.value := by
          rw [magnitude, hzero, hshortest, Scaled.value, Nat.cast_zero, zero_mul, zero_mul]
        rw [← hmagnitude]
        exact attracts_magnitude b
      · exact attracts_shortest (Nat.pos_of_ne_zero hzero) hb.bits hb.least
    exact (isNearest_numeral b.negative s).ofFloat? hb hmax hattracts

end PartProgram.Decimal
