/-
What the bits of a float mean, and what multiplying floats does to it.

`Binary` reads the bits of a float as a number.  Arithmetic on floats is defined on another
reading, which unpacks the bits, computes on significands and exponents and packs the result
again.  The two readings agree, so what is known of rounding carries over: a float times the
factor of a unit is a number again exactly as long as the magnitude stays below half a step
above the greatest float, and otherwise it is the infinity of the same sign.
-/
import PartProgram.Proofs.Rounding
import PartProgram.Word.Motion

namespace PartProgram.Decimal.Binary

open Float.Model Float.Model.UnpackedFloat PartProgram.Rounding

/-! ### The two readings of the bits

One reading takes the bits apart by division, as a text writer needs them; the other works on
bit vectors whose widths are the fields of the format.  They are compared field by field, and
the only place where they look different is the bit in front of the significand, which one of
them adds as a number and the other puts in front.
-/

/-- The number that an unpacked float is. -/
def ofUnpacked? : UnpackedFloat → Option Binary
  | .finite s m e _ => some ⟨s == .negative, m, e⟩
  | .zero s => some ⟨s == .negative, 0, -1074⟩
  | _ => none

theorem ofUnpacked?_finite (s : Sign) {m : Nat} (hm : 0 < m) (e : Int) :
    ofUnpacked? (.finite s m e hm) = some ⟨s == .negative, m, e⟩ := rfl

theorem ofUnpacked?_zero (s : Sign) : ofUnpacked? (.zero s) = some ⟨s == .negative, 0, -1074⟩ := rfl

theorem toNat_unpackMantissa (b : BitVec 64) :
    (@unpackMantissa Format.binary64 b).toNat = b.toNat % 2 ^ 52 := by
  show (b.extractLsb 51 0).toNat = _
  simp

theorem toNat_unpackExponent (b : BitVec 64) :
    (@unpackExponent Format.binary64 b).toNat = b.toNat / 2 ^ 52 % 2048 := by
  show (b.extractLsb 62 52).toNat = _
  simp [Nat.shiftRight_eq_div_pow]

theorem toNat_unpackSign (b : BitVec 64) :
    (@unpackSign Format.binary64 b).toNat = b.toNat / 2 ^ 63 % 2 := by
  show (b.extractLsb 63 63).toNat = _
  simp [Nat.shiftRight_eq_div_pow]

theorem negative_of_sign (b : BitVec 64) :
    (Sign.ofBitVec (@unpackSign Format.binary64 b) == Sign.negative)
      = decide (b.toNat / 2 ^ 63 % 2 = 1) := by
  have hsign := toNat_unpackSign b
  obtain ⟨v, hv⟩ : ∃ v, v = @unpackSign Format.binary64 b := ⟨_, rfl⟩
  rw [← hv] at hsign ⊢
  by_cases h0 : v = 0#1
  · have hzero : b.toNat / 2 ^ 63 % 2 = 0 := by
      rw [← hsign, h0]
      rfl
    rw [h0, hzero]
    rfl
  · have hne : v.toNat ≠ 0 := fun h => h0 (BitVec.eq_of_toNat_eq h)
    have hone : b.toNat / 2 ^ 63 % 2 = 1 := by omega
    rw [Sign.ofBitVec, if_neg h0, hone]
    rfl

theorem toNat_implicit (v : BitVec 52) : (1#1 ++ v).toNat = v.toNat + 2 ^ 52 := by
  have hlt := v.isLt
  rw [BitVec.toNat_append, ← Nat.shiftLeft_add_eq_or_of_lt hlt]
  simp [Nat.shiftLeft_eq]
  omega

/-- Both readings of the bits of a float agree. -/
theorem ofBits?_eq (b : BitVec 64) : ofBits? b.toNat = ofUnpacked? (unpack Format.binary64 b) := by
  have hm := toNat_unpackMantissa b
  have he := toNat_unpackExponent b
  have hs := negative_of_sign b
  unfold ofBits? UnpackedFloat.unpack
  dsimp only
  rw [← hm, ← he]
  by_cases htop : (@unpackExponent Format.binary64 b).toNat = 2047
  · have hall : @unpackExponent Format.binary64 b = -1#11 := BitVec.eq_of_toNat_eq htop
    rw [if_pos htop, if_pos hall]
    by_cases h0 : @unpackMantissa Format.binary64 b = 0#52
    · rw [if_pos h0]
      rfl
    · rw [if_neg h0]
      rfl
  · have hall : ¬ @unpackExponent Format.binary64 b = -1#11 := fun h => htop (congrArg BitVec.toNat h)
    rw [if_neg htop, if_neg hall]
    by_cases hzero : (@unpackExponent Format.binary64 b).toNat = 0
    · have hnone : @unpackExponent Format.binary64 b = 0#11 := BitVec.eq_of_toNat_eq hzero
      rw [if_pos hzero, if_pos hnone]
      by_cases h0 : @unpackMantissa Format.binary64 b = 0#52
      · rw [dif_pos h0, ofUnpacked?_zero, hs, h0]
        rfl
      · rw [dif_neg h0, ofUnpacked?_finite, hs, hzero]
        rfl
    · have hnone : ¬ @unpackExponent Format.binary64 b = 0#11 := fun h => hzero (congrArg BitVec.toNat h)
      rw [if_neg hzero, if_neg hnone, ofUnpacked?_finite, hs, toNat_implicit]
      rfl

theorem ofFloat?_eq (x : Float) : ofFloat? x = ofUnpacked? x.toModel.unpack := ofBits?_eq x.toModel.toBits.toBitVec

/-- A float that counts as finite is a number. -/
theorem isSome_of_isFinite {x : Float} (h : x.isFinite = true) : (ofFloat? x).isSome = true := by
  have hfinite : x.toModel.unpack.isFinite = true := h
  rw [ofFloat?_eq]
  cases hu : x.toModel.unpack with
  | finite s m e hm => rfl
  | zero s => rfl
  | infinity s => rw [hu] at hfinite; cases hfinite
  | notANumber => rw [hu] at hfinite; cases hfinite

/-! ### Packing

The arithmetic leaves a sign, a significand and an exponent, and packing them back is where the
range ends: what has too great an exponent becomes an infinity, and nothing else does.
-/

/-- Bits whose exponent is not the greatest one are a number. -/
theorem isSome_of_exponent {b : BitVec 64} (h : @unpackExponent Format.binary64 b ≠ -1#11) :
    (ofUnpacked? (unpack Format.binary64 b)).isSome = true := by
  unfold UnpackedFloat.unpack
  dsimp only
  rw [if_neg h]
  by_cases hzero : @unpackExponent Format.binary64 b = 0#11
  · rw [if_pos hzero]
    by_cases h0 : @unpackMantissa Format.binary64 b = 0#52
    · rw [dif_pos h0]
      rfl
    · rw [dif_neg h0]
      rfl
  · rw [if_neg hzero]
    rfl

theorem unpack_packedInfinity (s : Sign) : unpack Format.binary64 (packedInfinity Format.binary64 s) = .infinity s := by
  cases s with
  | negative => rfl
  | positive => rfl

theorem pack_finite (s : Sign) {m : Nat} (hm : 0 < m) (e : Int) :
    UnpackedFloat.pack Format.binary64 (.finite s m e hm) =
      if 2048 ≤ (e + (1023 : Nat) + (52 : Nat)).toNat + 1 then packedInfinity Format.binary64 s
      else if m.log2 + 1 = 53 then
        packComponents Format.binary64 s (BitVec.ofNat _ (e + (1023 : Nat) + (52 : Nat)).toNat) (BitVec.ofNat _ m)
      else packComponents Format.binary64 s 0#_ (BitVec.ofNat _ m) := rfl

/-- What leaves the range is packed as an infinity. -/
theorem unpack_pack_of_exceeds {u : UnpackedFloat} {s : Sign} (hs : IsSigned s u) (h : Exceeds u) :
    unpack Format.binary64 (UnpackedFloat.pack Format.binary64 u) = .infinity s := by
  cases u with
  | finite s' m e hm =>
      obtain rfl : s' = s := hs
      have he : 972 ≤ e := h
      have hbig : 2048 ≤ (e + (1023 : Nat) + (52 : Nat)).toNat + 1 := by omega
      rw [pack_finite, if_pos hbig, unpack_packedInfinity]
  | _ => exact absurd h id

/-- What stays in the range is packed as a number. -/
theorem isSome_pack_of_not_exceeds {u : UnpackedFloat} {s : Sign} (hs : IsSigned s u) (h : ¬ Exceeds u) :
    (ofUnpacked? (unpack Format.binary64 (UnpackedFloat.pack Format.binary64 u))).isSome = true := by
  refine isSome_of_exponent ?_
  cases u with
  | infinity s' => exact absurd hs id
  | notANumber => exact absurd hs id
  | zero s' =>
      unfold UnpackedFloat.pack packedZero
      rw [unpackExponent_packComponents]
      decide
  | finite s' m e hm =>
      have he : ¬ 972 ≤ e := h
      have hfits : ¬ 2048 ≤ (e + (1023 : Nat) + (52 : Nat)).toNat + 1 := by omega
      rw [pack_finite, if_neg hfits]
      by_cases hnormal : m.log2 + 1 = 53
      · rw [if_pos hnormal, unpackExponent_packComponents]
        intro hall
        have htop := congrArg BitVec.toNat hall
        have hexponent : (e + (1023 : Nat) + (52 : Nat)).toNat % 2048 = 2047 := htop
        omega
      · rw [if_neg hnormal, unpackExponent_packComponents]
        decide

/-! ### Products -/

/-- Whether the number times a factor is at least half a step above the greatest float. -/
def overflows (factor : Nat) (b : Binary) : Bool := decide ((2 ^ 1024 - 2 ^ 970) * b.ratio.2 ≤ b.ratio.1 * factor)

/-- The same in the scale in which rounding is compared. -/
theorem overflows_iff {b : Binary} (he : -1100 ≤ b.exponent) (factor : Nat) :
    b.overflows factor = true ↔
      (2 ^ 1024 - 2 ^ 970) * 2 ^ 1200 ≤ b.significand * factor * 2 ^ (b.exponent + 1200).toNat := by
  obtain ⟨d, hd⟩ : ∃ d, d = 1200 - (-b.exponent).toNat := ⟨_, rfl⟩
  have hpos : 0 < 2 ^ d := Nat.two_pow_pos d
  rw [overflows, decide_eq_true_eq, ratio]
  generalize 2 ^ 1024 - 2 ^ 970 = limit
  have hleft : limit * 2 ^ (-b.exponent).toNat * 2 ^ d = limit * 2 ^ 1200 := by
    rw [Nat.mul_assoc, two_pow_split (show 1200 = (-b.exponent).toNat + d by omega)]
  have hright : b.significand * 2 ^ b.exponent.toNat * factor * 2 ^ d
      = b.significand * factor * 2 ^ (b.exponent + 1200).toNat := by
    rw [two_pow_split (show (b.exponent + 1200).toNat = b.exponent.toNat + d by omega)]
    ac_rfl
  rw [← hleft, ← hright]
  exact (Nat.mul_le_mul_right_iff hpos).symm

/-- The factors of the units, as the arithmetic of floats sees them. -/
theorem unpack_factor {f : Nat} (hf : f ∈ [1, 10, 100, 1000]) :
    ∃ k : Nat, ∃ h : 0 < f * 2 ^ k, 43 ≤ k ∧ k ≤ 52 ∧ 2 ^ 52 ≤ f * 2 ^ k
      ∧ (Float.ofNat f).toModel.unpack = .finite .positive (f * 2 ^ k) (-k) h := by
  simp only [List.mem_cons, List.not_mem_nil, or_false] at hf
  rcases hf with rfl | rfl | rfl | rfl
  · exact ⟨52, by decide, by decide, by decide, by decide, rfl⟩
  · exact ⟨49, by decide, by decide, by decide, by decide, rfl⟩
  · exact ⟨46, by decide, by decide, by decide, by decide, rfl⟩
  · exact ⟨43, by decide, by decide, by decide, by decide, rfl⟩

theorem toModel_mul (x y : Float) : (x * y).toModel.unpack = unpack Format.binary64
    (UnpackedFloat.pack Format.binary64 (UnpackedFloat.mul Format.binary64 x.toModel.unpack y.toModel.unpack)) := rfl

/-- The significand of a float has at most fifty-three bits, and its exponent is between
those of the least float and of the greatest. -/
theorem bounds_of_ofFloat {x : Float} {b : Binary} (h : ofFloat? x = some b) :
    b.significand < 2 ^ 53 ∧ -1074 ≤ b.exponent ∧ b.exponent ≤ 971 := by
  unfold ofFloat? ofBits? at h
  simp only at h
  split at h
  · simp at h
  · split at h
    · rw [← Option.some.inj h]
      show _ % 2 ^ 52 < 2 ^ 53 ∧ (-1074 : Int) ≤ -1074 ∧ (-1074 : Int) ≤ 971
      omega
    · rw [← Option.some.inj h]
      show _ % 2 ^ 52 + 2 ^ 52 < 2 ^ 53
        ∧ -1074 ≤ ((_ % 2048 : Nat) : Int) - 1075 ∧ ((_ % 2048 : Nat) : Int) - 1075 ≤ 971
      omega

/-- No float leaves the range by itself. -/
theorem overflows_one {x : Float} {b : Binary} (h : ofFloat? x = some b) : b.overflows 1 = false := by
  obtain ⟨hsignificand, hmin, hmax⟩ := bounds_of_ofFloat h
  obtain ⟨k, hk⟩ : ∃ k, k = 2170 := ⟨_, rfl⟩
  have hbelow : b.significand * 2 ^ (b.exponent + 1200).toNat < (2 ^ 54 - 1) * 2 ^ 0 * 2 ^ k := by
    calc b.significand * 2 ^ (b.exponent + 1200).toNat
        ≤ b.significand * 2 ^ (1 + k) := Nat.mul_le_mul_left _ (Nat.pow_le_pow_right Nat.two_pos (by omega))
      _ = b.significand * 2 ^ 1 * 2 ^ k := by rw [Nat.pow_add, Nat.mul_assoc]
      _ < (2 ^ 54 - 1) * 2 ^ 0 * 2 ^ k := Nat.mul_lt_mul_of_pos_right (by omega) (Nat.two_pow_pos k)
  refine Bool.eq_false_iff.mpr ?_
  intro hover
  rw [overflows_iff (by omega), Nat.mul_one, limit_eq (k := 0) (a := k) (by omega)] at hover
  exact absurd hover (Nat.not_le_of_lt hbelow)

/-- A float times the factor of a unit, the float being a number with a significand. -/
theorem round_factor {s : Sign} {m : Nat} {e : Int} (hm : 0 < m) (he : -1074 ≤ e) {f k : Nat} (hk : k ≤ 52)
    (hlarge : 2 ^ 52 ≤ f * 2 ^ k) :
    IsSigned s (roundWithAccuracy Format.binary64 s (m * (f * 2 ^ k)) (e + -k) .exact)
    ∧ (Exceeds (roundWithAccuracy Format.binary64 s (m * (f * 2 ^ k)) (e + -k) .exact)
      ↔ (2 ^ 1024 - 2 ^ 970) * 2 ^ 1200 ≤ m * f * 2 ^ (e + 1200).toNat) := by
  have hbits : 2 ^ 52 ≤ m * (f * 2 ^ k) := Nat.le_trans hlarge (Nat.le_mul_of_pos_left _ hm)
  have hscale : m * (f * 2 ^ k) * 2 ^ (e + -k + 1200).toNat = m * f * 2 ^ (e + 1200).toNat := by
    rw [two_pow_split (show (e + 1200).toNat = k + (e + -k + 1200).toNat by omega)]
    ac_rfl
  rw [← hscale]
  exact round_spec s hbits (by omega)

/-- **The product of a float with the factor of a unit.**  It is a number unless the
magnitude reaches the end of the range, and then it is the infinity of the same sign. -/
theorem mul_factor {x : Float} {b : Binary} (hx : ofFloat? x = some b) {f : Nat} (hf : f ∈ [1, 10, 100, 1000]) :
    (b.overflows f = true →
      ∃ s, b.negative = (s == Sign.negative) ∧ (x * Float.ofNat f).toModel.unpack = .infinity s)
    ∧ (b.overflows f = false → (ofFloat? (x * Float.ofNat f)).isSome = true) := by
  have hmin := (bounds_of_ofFloat hx).2.1
  rw [ofFloat?_eq] at hx
  obtain ⟨k, hpos, -, hk, hlarge, hfactor⟩ := unpack_factor hf
  rw [ofFloat?_eq, toModel_mul, hfactor]
  cases hu : x.toModel.unpack with
  | infinity s => rw [hu] at hx; cases hx
  | notANumber => rw [hu] at hx; cases hx
  | zero s =>
      rw [hu] at hx
      obtain rfl := Option.some.inj hx
      have hstays : (Binary.mk (s == .negative) 0 (-1074)).overflows f = false := by
        refine Bool.eq_false_iff.mpr ?_
        intro h
        have hreach := Nat.lt_of_lt_of_le (two_pow_lt_limit (t := 0) (by omega)) ((overflows_iff (by omega) f).mp h)
        rw [Nat.zero_mul, Nat.zero_mul] at hreach
        exact absurd hreach (Nat.not_lt_zero _)
      refine ⟨fun h => absurd (hstays.symm.trans h) Bool.false_ne_true, ?_⟩
      intro _
      exact isSome_pack_of_not_exceeds (show IsSigned (s * .positive) (.zero (s * .positive)) from rfl) id
  | finite s m e hm =>
      rw [hu] at hx
      obtain rfl := Option.some.inj hx
      obtain ⟨hsigned, hexceeds⟩ := round_factor (s := s * .positive) hm hmin hk hlarge
      have hover := overflows_iff (b := ⟨s == .negative, m, e⟩) (by omega) f
      refine ⟨fun h => ⟨s * .positive, ?_, ?_⟩, ?_⟩
      · cases s <;> rfl
      · exact unpack_pack_of_exceeds hsigned (hexceeds.mpr (hover.mp h))
      · intro h
        exact isSome_pack_of_not_exceeds hsigned fun hc => by
          have := hover.mpr (hexceeds.mp hc)
          rw [h] at this
          simp at this

/-- How an infinity is written. -/
theorem plainText_of_infinity {y : Float} {s : Sign} (h : y.toModel.unpack = .infinity s) :
    plainText y = if s == .negative then "-inf" else "inf" := by
  have hnone : ofFloat? y = none := by
    rw [ofFloat?_eq, h]
    rfl
  have hnan : y.isNaN = false := by
    show y.toModel.unpack.isNaN = false
    rw [h]
    rfl
  have hbelow : (y < 0) ↔ s = .negative := by
    show decide (y.toModel < (0 : Float).toModel) = true ↔ _
    rw [decide_eq_true_eq]
    show y.toModel.unpack.lt (0 : Float).toModel.unpack = true ↔ _
    rw [h, show (0 : Float).toModel.unpack = .zero .positive from rfl]
    cases s with
    | negative => exact ⟨fun _ => rfl, fun _ => rfl⟩
    | positive =>
        constructor
        · intro h
          cases h
        · intro h
          cases h
  rw [plainText, hnone]
  show nonFiniteText y = _
  rw [nonFiniteText, if_neg (by rw [hnan]; exact Bool.false_ne_true)]
  cases s with
  | negative => rw [if_pos (hbelow.mpr rfl)]; rfl
  | positive =>
      have hnot : ¬ y < 0 := by
        intro hc
        cases hbelow.mp hc
      rw [if_neg hnot]
      rfl

end PartProgram.Decimal.Binary
