/-
Words that are passed over.

A number below a thousand is drawn by passing over words until the top ten bits of one are below it.
This comes to an end, and the reason is that the words cannot look alike for long.  A word that is
passed over has the bit 28 set, and that bit of a tempered word is the sum of two bits of the word
of the state.  So while words are passed over, one sum of two bits is one all the time.

Sequences of bits are acted on by polynomials, the indeterminate being a step forward.  Every bit of
the words of a state satisfies a relation to the others in which a lag, the step of 624 words and the
step of 397 taken together, is the only operation besides single steps.  Going through all bits and
back to the first gives a polynomial that sends every one of them to zero.  On a sequence of ones
both steps do nothing, so the lag is zero and the polynomial is one.  Its degree is the number of
words after which no sum of bits can have been one all the time.
-/
import Mathlib.Algebra.CharP.Two
import Mathlib.Algebra.Field.ZMod
import Mathlib.Algebra.Polynomial.AlgebraMap
import Mathlib.Algebra.Polynomial.Eval.Degree
import Mathlib.LinearAlgebra.Pi
import PartProgram.Proofs.TwisterWords

namespace PartProgram.Twister

open Polynomial

/-! ### Bits of a word

Twisting and tempering are made of shifts, masks and sums without carry, and so every bit of a
result is a sum of bits.  As elements of the field with two elements these sums can be computed
with, and a mask becomes a factor.
-/

/-- A bit of a word. -/
def bit (b : Nat) (w : UInt32) : ZMod 2 := if w.toBitVec.getLsbD b then 1 else 0

theorem bit_eq_zero {b : Nat} (hb : 32 ≤ b) (w : UInt32) : bit b w = 0 := by
  rw [bit, BitVec.getLsbD_of_ge _ _ hb]
  rfl

theorem bit_xor (b : Nat) (u w : UInt32) : bit b (u ^^^ w) = bit b u + bit b w := by
  unfold bit
  rw [UInt32.toBitVec_xor, BitVec.getLsbD_xor]
  cases u.toBitVec.getLsbD b <;> cases w.toBitVec.getLsbD b <;> decide

theorem bit_shiftRight_one (b : Nat) (w : UInt32) : bit b (w >>> 1) = bit (b + 1) w := by
  unfold bit
  rw [UInt32.toBitVec_shiftRight]
  simp [Nat.add_comm]

theorem and_one_eq_iff (w : UInt32) : w &&& 1 = 1 ↔ w.toBitVec.getLsbD 0 = true := by
  rw [← UInt32.toNat_inj, UInt32.toNat_and]
  simp [BitVec.getLsbD, Nat.and_one_is_mod, Nat.testBit_zero]

theorem bit_odd (b : Nat) (w : UInt32) : bit b (if w &&& 1 = 1 then oddMask else 0) = bit b oddMask * bit 0 w := by
  by_cases h : w &&& 1 = 1
  · have hw : bit 0 w = 1 := if_pos ((and_one_eq_iff w).mp h)
    rw [if_pos h, hw, mul_one]
  · have hw : bit 0 w = 0 := if_neg (mt (and_one_eq_iff w).mpr h)
    have hnone : bit b 0 = 0 := by simp [bit]
    rw [if_neg h, hw, mul_zero, hnone]

theorem bit_joined_of_lt {b : Nat} (hb : b < 31) (high low : UInt32) : bit b (joined high low) = bit b low := by
  have hmasks : ∀ b < 31, (0x80000000#32).getLsbD b = false ∧ (0x7fffffff#32).getLsbD b = true := by decide
  obtain ⟨hhigh, hlow⟩ := hmasks b hb
  unfold bit joined
  rw [UInt32.toBitVec_or, UInt32.toBitVec_and, UInt32.toBitVec_and, BitVec.getLsbD_or, BitVec.getLsbD_and,
    BitVec.getLsbD_and]
  simp [hhigh, hlow]

theorem bit_joined_top (high low : UInt32) : bit 31 (joined high low) = bit 31 high := by
  unfold bit joined
  simp

theorem bit_twist (b : Nat) (high low far : UInt32) :
    bit b (twist high low far)
      = bit b far + bit (b + 1) (joined high low) + bit b oddMask * bit 0 (joined high low) := by
  rw [twist, bit_xor, bit_xor, bit_shiftRight_one, bit_odd]

/-- Tempering adds two bits up. -/
theorem bit_tempered (w : UInt32) : bit 28 (tempered w) = bit 28 w + bit 21 w := by
  have hsum : (tempered w).toBitVec.getLsbD 28 = (w.toBitVec.getLsbD 28 ^^ w.toBitVec.getLsbD 21) := by
    unfold tempered
    simp
  unfold bit
  rw [hsum]
  cases w.toBitVec.getLsbD 28 <;> cases w.toBitVec.getLsbD 21 <;> decide

/-! ### Sequences of bits

One bit of each word makes a sequence, and what ties the words together are steps forward and
sums.  With the indeterminate for a step a relation between sequences is a polynomial that sends
one to another, and relations are put together by multiplying.
-/

/-- A sequence of bits. -/
abbrev Bits := Nat → ZMod 2

/-- The sequence without its first member. -/
noncomputable def later : Module.End (ZMod 2) Bits := LinearMap.funLeft (ZMod 2) (ZMod 2) (· + 1)

/-- What a polynomial makes of a sequence, the indeterminate being a step forward. -/
noncomputable def act (q : (ZMod 2)[X]) (s : Bits) : Bits := aeval later q s

section

variable {q : (ZMod 2)[X]} {s : Bits}

theorem act_add (p q : (ZMod 2)[X]) (s : Bits) : act (p + q) s = act p s + act q s := by
  rw [act, map_add]
  rfl

theorem act_mul (p q : (ZMod 2)[X]) (s : Bits) : act (p * q) s = act p (act q s) := by
  rw [act, map_mul]
  rfl

theorem act_sum (q : (ZMod 2)[X]) (s t : Bits) : act q (s + t) = act q s + act q t := map_add _ s t

theorem act_zero (q : (ZMod 2)[X]) : act q 0 = 0 := map_zero _

/-- What is added to itself is nothing. -/
theorem add_self (s : Bits) : s + s = 0 := funext fun k => CharTwo.add_self_eq_zero (s k)

theorem act_C (c : ZMod 2) (s : Bits) : act (C c) s = c • s := by
  rw [act, aeval_C]
  rfl

theorem later_pow_apply (i : Nat) (s : Bits) (k : Nat) : (later ^ i) s k = s (k + i) := by
  induction i generalizing k with
  | zero => rfl
  | succ i ih =>
      rw [pow_succ', Module.End.mul_apply]
      exact (ih (k + 1)).trans (congrArg s (by omega))

theorem act_X_pow (i : Nat) (s : Bits) (k : Nat) : act (X ^ i) s k = s (k + i) := by
  rw [act, map_pow, aeval_X, later_pow_apply]

theorem act_X (s : Bits) (k : Nat) : act X s k = s (k + 1) := by
  rw [← pow_one X, act_X_pow]

/-- On ones a polynomial is its value at one. -/
theorem act_of_ones (h : ∀ i ≤ q.natDegree, s i = 1) : act q s 0 = q.eval 1 := by
  rw [act, aeval_eq_sum_range, LinearMap.sum_apply, Finset.sum_apply, eval_eq_sum_range]
  refine Finset.sum_congr rfl fun i hi => ?_
  have hone : s i = 1 := h i (Nat.lt_succ_iff.mp (Finset.mem_range.mp hi))
  rw [LinearMap.smul_apply, Pi.smul_apply, later_pow_apply, Nat.zero_add, hone, one_pow, smul_eq_mul]

end

/-! ### Sequences that climb

The bits of the words are tied to each other one after another.  What follows from this alone is
said of any sequences that are tied in this way, by whatever polynomial and with whatever mask.
-/

/-- From the lowest to the last below the highest, a step of each sequence is given by the one below it and by the
highest; the lowest is given by the highest alone, and the highest by the last. -/
structure Climbs (l : (ZMod 2)[X]) (mask : Nat → ZMod 2) (last : Nat) (s : Nat → Bits) : Prop where
  low : act X (s 0) = act l (s (last + 1))
  step : ∀ b < last, act X (s (b + 1)) = act l (s b) + act (C (mask b)) (act l (s (last + 1)))
  high : act l (s last) = s (last + 1)

section

variable (l : (ZMod 2)[X]) (mask : Nat → ZMod 2)

/-- What leads from the highest sequence to the one with the number `b`, in `b + 1` steps. -/
noncomputable def ladder : Nat → (ZMod 2)[X]
  | 0 => l
  | b + 1 => l * (ladder b + C (mask b) * X ^ (b + 1))

/-- The difference between going round from the highest sequence to itself and staying there. -/
noncomputable def closing (last : Nat) : (ZMod 2)[X] := X ^ (last + 1) + l * ladder l mask last

variable {l mask}

theorem eval_closing (hl : l.eval 1 = 0) (n last : Nat) : (X ^ n * closing l mask last).eval 1 = 1 := by
  rw [closing, eval_mul, eval_add, eval_mul, hl, zero_mul, add_zero, eval_pow, eval_pow, eval_X, one_pow, one_pow, one_mul]

theorem natDegree_ladder {d : Nat} (hd : 0 < d) (hl : l.natDegree ≤ d) (b : Nat) :
    (ladder l mask b).natDegree ≤ d * (b + 1) := by
  induction b with
  | zero => rwa [ladder, zero_add, mul_one]
  | succ b ih =>
      have hstep : (C (mask b) * X ^ (b + 1)).natDegree ≤ d * (b + 1) :=
        (natDegree_C_mul_X_pow_le _ _).trans (Nat.le_mul_of_pos_left _ hd)
      have hwidth : d + d * (b + 1) = d * (b + 1 + 1) := by ring
      rw [ladder, ← hwidth]
      exact natDegree_mul_le_of_le hl (natDegree_add_le_of_degree_le ih hstep)

theorem natDegree_closing {d : Nat} (hd : 0 < d) (hl : l.natDegree ≤ d) (n last : Nat) :
    (X ^ n * closing l mask last).natDegree ≤ n + d * (last + 2) := by
  have hround : (l * ladder l mask last).natDegree ≤ d * (last + 2) := by
    have hwidth : d + d * (last + 1) = d * (last + 2) := by ring
    rw [← hwidth]
    exact natDegree_mul_le_of_le hl (natDegree_ladder hd hl last)
  have hsteps : (X ^ (last + 1) : (ZMod 2)[X]).natDegree ≤ d * (last + 2) :=
    (natDegree_X_pow_le _).trans ((Nat.le_succ _).trans (Nat.le_mul_of_pos_left _ hd))
  exact natDegree_mul_le_of_le (natDegree_X_pow_le n) (natDegree_add_le_of_degree_le hsteps hround)

end

namespace Climbs

variable {l : (ZMod 2)[X]} {mask : Nat → ZMod 2} {last b : Nat} {s : Nat → Bits}

theorem act_ladder (h : Climbs l mask last s) (hb : b ≤ last) :
    act (X ^ (b + 1)) (s b) = act (ladder l mask b) (s (last + 1)) := by
  induction b with
  | zero => rw [zero_add, pow_one, ladder, h.low]
  | succ b ih =>
      have hlow := ih (Nat.le_of_succ_le hb)
      -- Polynomials commute, so the steps that are still to be made go past the lag and the mask.
      have hmasked : act (X ^ (b + 1)) (act (C (mask b)) (act l (s (last + 1))))
          = act (l * (C (mask b) * X ^ (b + 1))) (s (last + 1)) := by
        rw [← act_mul, ← act_mul, mul_comm l, mul_comm (X ^ (b + 1))]
      calc act (X ^ (b + 1 + 1)) (s (b + 1))
          = act (X ^ (b + 1)) (act l (s b) + act (C (mask b)) (act l (s (last + 1)))) := by
            rw [pow_succ, act_mul, h.step b hb]
        _ = act l (act (X ^ (b + 1)) (s b)) + act (l * (C (mask b) * X ^ (b + 1))) (s (last + 1)) := by
            rw [act_sum, hmasked, ← act_mul, mul_comm, act_mul]
        _ = act (ladder l mask (b + 1)) (s (last + 1)) := by
            rw [hlow, ← act_mul, ← act_add, ladder, mul_add]

theorem act_closing (h : Climbs l mask last s) : act (closing l mask last) (s (last + 1)) = 0 := by
  have hround : act (l * ladder l mask last) (s (last + 1)) = act (X ^ (last + 1)) (s (last + 1)) := by
    rw [act_mul, ← h.act_ladder (le_refl last), ← act_mul, mul_comm, act_mul, h.high]
  rw [closing, act_add, hround, add_self]

/-- All sequences are sent to zero. -/
theorem act_eq_zero (h : Climbs l mask last s) (hb : b ≤ last) {n : Nat} (hn : b < n) :
    act (X ^ n * closing l mask last) (s b) = 0 := by
  have hsplit : X ^ n * closing l mask last = X ^ (n - (b + 1)) * closing l mask last * X ^ (b + 1) := by
    rw [mul_right_comm, ← pow_add, Nat.sub_add_cancel hn]
  have hswap : X ^ (n - (b + 1)) * closing l mask last * ladder l mask b
      = X ^ (n - (b + 1)) * ladder l mask b * closing l mask last := mul_right_comm _ _ _
  rw [hsplit, act_mul, h.act_ladder hb, ← act_mul, hswap, act_mul, h.act_closing, act_zero]

/-- **No sum of two sequences is one all the time**, because what sends them to zero is one on ones. -/
theorem exists_sum_ne_one (h : Climbs l mask last s) (heval : l.eval 1 = 0) {d : Nat} (hd : 0 < d)
    (hl : l.natDegree ≤ d) {a : Nat} (ha : a ≤ last) (hb : b ≤ last) :
    ∃ k ≤ last + 1 + d * (last + 2), s a k + s b k ≠ 1 := by
  by_contra hall
  push Not at hall
  -- The same polynomial is zero on the sum, being zero on both sequences, and one on ones.
  have hones : ∀ i ≤ (X ^ (last + 1) * closing l mask last).natDegree, (s a + s b) i = 1 :=
    fun i hi => hall i (hi.trans (natDegree_closing hd hl (last + 1) last))
  have hzero : act (X ^ (last + 1) * closing l mask last) (s a + s b) = 0 := by
    rw [act_sum, h.act_eq_zero ha (Nat.lt_succ_of_le ha), h.act_eq_zero hb (Nat.lt_succ_of_le hb), add_zero]
  have hone := act_of_ones hones
  rw [hzero, eval_closing heval] at hone
  exact absurd hone (by decide)

end Climbs

/-! ### The bits of words that flow

For the generator at hand there are thirty-two sequences, the lag is 624 steps and 397 together,
and the mask is the one that is mixed in.  The degree that comes out bounds how many words can
be passed over in a row.
-/

/-- One bit of each word. -/
def bits (x : Nat → UInt32) (b : Nat) : Bits := fun k => bit b (x k)

/-- What is twisted into the words. -/
def joins (x : Nat → UInt32) (k : Nat) : UInt32 := joined (x k) (x (k + 1))

/-- So many steps and so many others, taken together. -/
noncomputable def steps (m n : Nat) : (ZMod 2)[X] := X ^ m + X ^ n

theorem act_steps (m n : Nat) (s : Bits) (k : Nat) : act (steps m n) s k = s (k + m) + s (k + n) := by
  rw [steps, act_add, Pi.add_apply, act_X_pow, act_X_pow]

theorem eval_steps (m n : Nat) : (steps m n).eval 1 = 0 := by
  rw [steps, eval_add, eval_pow, eval_pow, eval_X, one_pow, one_pow, CharTwo.add_self_eq_zero]

theorem natDegree_steps {m n : Nat} (h : n ≤ m) : (steps m n).natDegree ≤ m :=
  natDegree_add_le_of_degree_le (natDegree_X_pow_le m) ((natDegree_X_pow_le n).trans h)

variable {x : Nat → UInt32}

theorem bits_joins_of_lt (x : Nat → UInt32) {b : Nat} (hb : b < 31) : bits (joins x) b = act X (bits x b) := by
  funext k
  rw [act_X]
  exact bit_joined_of_lt hb (x k) (x (k + 1))

theorem bits_joins_top (x : Nat → UInt32) : bits (joins x) 31 = bits x 31 := by
  funext k
  exact bit_joined_top (x k) (x (k + 1))

/-- A word and the third of those it is made of differ by what is twisted in. -/
theorem Flows.act_lag (h : Flows x) (b : Nat) : act (steps size reach) (bits x b)
    = bits (joins x) (b + 1) + act (C (bit b oddMask)) (act X (bits x 0)) := by
  rw [← bits_joins_of_lt x (by decide), act_C]
  funext k
  have hword : bit b (x (k + size))
      = bit b (x (k + reach)) + bit (b + 1) (joins x k) + bit b oddMask * bit 0 (joins x k) := by
    rw [h k, bit_twist]
    rfl
  calc act (steps size reach) (bits x b) k
      = bit b (x (k + size)) + bit b (x (k + reach)) := act_steps size reach (bits x b) k
    _ = bit (b + 1) (joins x k) + bit b oddMask * bit 0 (joins x k)
          + (bit b (x (k + reach)) + bit b (x (k + reach))) := by
        rw [hword]
        ring
    _ = bit (b + 1) (joins x k) + bit b oddMask * bit 0 (joins x k) := by
        rw [CharTwo.add_self_eq_zero, add_zero]

/-- Above the highest bit there is none, which the mask has, and the mask does not have the bit below it. -/
theorem Flows.climbs (h : Flows x) : Climbs (steps size reach) (bit · oddMask) 30 (bits x) := by
  have hlow : act X (bits x 0) = act (steps size reach) (bits x 31) := by
    have hnone : bits (joins x) 32 = 0 := funext fun k => bit_eq_zero (by decide) _
    have hmask : bit 31 oddMask = 1 := by decide
    rw [h.act_lag, hnone, hmask, act_C, one_smul, zero_add]
  refine ⟨hlow, fun b hb => ?_, ?_⟩
  · rw [h.act_lag b, bits_joins_of_lt x (by omega), ← hlow, add_assoc, add_self, add_zero]
  · have hmask : bit 30 oddMask = 0 := by decide
    rw [h.act_lag, hmask, act_C, zero_smul, add_zero, bits_joins_top]

/-! ### The words that are drawn -/

/-- The number in the top ten bits of a word. -/
def number (w : UInt32) : Nat := (w >>> 22).toNat

theorem bit_of_le_number {w : UInt32} (h : 1000 ≤ number w) : bit 28 w = 1 := by
  have hnumber : number w = w.toNat / 2 ^ 22 := by
    rw [number, UInt32.toNat_shiftRight, Nat.shiftRight_eq_div_pow]
    rfl
  have hlt := w.toNat_lt
  have hset : w.toBitVec.getLsbD 28 = true := by
    rw [BitVec.getLsbD, Nat.testBit_eq_decide_div_mod_eq, UInt32.toNat_toBitVec, decide_eq_true_iff]
    omega
  exact if_pos hset

/-- **Words are not passed over for ever.** -/
theorem exists_number_lt {g : Twister} (h : g.Whole) : ∃ k < patience, number (g.word k) < 1000 := by
  have hflows := (flows_row h.size).shift g.place
  obtain ⟨k, hk, hbits⟩ := hflows.climbs.exists_sum_ne_one (eval_steps size reach) (by decide)
    (natDegree_steps (by decide)) (show 28 ≤ 30 by decide) (show 21 ≤ 30 by decide)
  refine ⟨k, Nat.lt_of_le_of_lt hk (by decide), ?_⟩
  by_contra hnumber
  have hset := bit_of_le_number (Nat.not_lt.mp hnumber)
  rw [word_eq h, bit_tempered] at hset
  exact hbits hset

end PartProgram.Twister
