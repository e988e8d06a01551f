/-
The names that a source gives out.

A name is a number below a thousand in three digits.  A source that counts goes on by one from name
to name, so its names come back after a thousand of them and not before.  A seeded source passes over
words of its generator until the top ten bits of one are below a thousand, which comes to an end
before its patience does; so its names are, one after another, all the words of the generator that
are not passed over.
-/
import Mathlib.Data.Nat.Digits.Defs
import Mathlib.Data.Nat.ModEq
import Mathlib.Data.Nat.Nth
import PartProgram.Naming.NameSource
import PartProgram.Proofs.DecimalValue
import PartProgram.Proofs.PassedWords

namespace PartProgram

/-! ### Numbers that are drawn

A draw has patience for so many words and no more.  Since words are not passed over for ever it
never comes to the end of it: the words that count are infinitely many, and the next one is
always near enough.
-/

namespace Twister

variable {g : Twister}

/-- The number that is drawn is in the first word that is not passed over. -/
theorem belowThousand_eq {fuel k : Nat} (hk : k ≤ fuel) (hpassed : ∀ i < k, 1000 ≤ number (g.word i))
    (hdrawn : number (g.word k) < 1000) : g.belowThousand fuel = (number (g.word k), g.after (k + 1)) := by
  induction fuel generalizing g k with
  | zero =>
      obtain rfl := Nat.le_zero.mp hk
      exact Prod.ext (Nat.mod_eq_of_lt hdrawn) rfl
  | succ fuel ih =>
      cases k with
      | zero => exact if_pos hdrawn
      | succ k =>
          have hfirst : ¬ (g.next.1 >>> 22).toNat < 1000 := Nat.not_lt.mpr (hpassed 0 (Nat.succ_pos k))
          rw [belowThousand, if_neg hfirst]
          exact ih (Nat.le_of_succ_le_succ hk) (fun i hi => hpassed (i + 1) (Nat.succ_lt_succ hi)) hdrawn

/-- Where the words are that are not passed over, in order. -/
noncomputable def drawnAt (g : Twister) : Nat → Nat := Nat.nth fun i => number (g.word i) < 1000

/-- How many words are gone when so many numbers are drawn. -/
noncomputable def gone (g : Twister) : Nat → Nat
  | 0 => 0
  | k + 1 => g.drawnAt k + 1

/-- There is always one more word that is not passed over. -/
theorem exists_drawn (h : g.Whole) (m : Nat) : ∃ i, m ≤ i ∧ i - m < patience ∧ number (g.word i) < 1000 := by
  obtain ⟨k, hk, hdrawn⟩ := exists_number_lt (h.after m)
  rw [word_after] at hdrawn
  exact ⟨m + k, Nat.le_add_right m k, by omega, hdrawn⟩

theorem infinite_drawn (h : g.Whole) : (Set.ofPred fun i => number (g.word i) < 1000).Infinite := by
  refine Set.infinite_of_forall_exists_gt fun m => ?_
  obtain ⟨i, hi, -, hdrawn⟩ := exists_drawn h (m + 1)
  exact ⟨i, hdrawn, hi⟩

theorem number_drawnAt_lt (h : g.Whole) (k : Nat) : number (g.word (g.drawnAt k)) < 1000 :=
  Nat.nth_mem_of_infinite (infinite_drawn h) k

theorem strictMono_drawnAt (h : g.Whole) : StrictMono g.drawnAt := Nat.nth_strictMono (infinite_drawn h)

theorem exists_drawnAt_eq_iff (h : g.Whole) (i : Nat) : (∃ k, g.drawnAt k = i) ↔ number (g.word i) < 1000 :=
  Set.ext_iff.mp (Nat.range_nth_of_infinite (infinite_drawn h)) i

theorem gone_le_drawnAt (h : g.Whole) (k : Nat) : g.gone k ≤ g.drawnAt k := by
  cases k with
  | zero => exact Nat.zero_le _
  | succ k => exact strictMono_drawnAt h (Nat.lt_succ_self k)

/-- Between two numbers that are drawn all words are passed over. -/
theorem passed_of_lt_drawnAt {k i : Nat} (hgone : g.gone k ≤ i) (hi : i < g.drawnAt k) : 1000 ≤ number (g.word i) := by
  by_contra hnumber
  have hdrawn := Nat.not_le.mp hnumber
  cases k with
  | zero =>
      rw [drawnAt, Nat.nth_zero] at hi
      exact Nat.notMem_of_lt_sInf hi hdrawn
  | succ k =>
      have hle : i ≤ g.drawnAt k := Nat.le_nth_of_lt_nth_succ hi hdrawn
      exact absurd hgone (Nat.not_le.mpr (Nat.lt_succ_of_le hle))

/-- **The numbers that are drawn** are those of the words that are not passed over, one after another. -/
theorem belowThousand_after_gone (h : g.Whole) (k : Nat) :
    (g.after (g.gone k)).belowThousand patience = (number (g.word (g.drawnAt k)), g.after (g.gone (k + 1))) := by
  have hgone := gone_le_drawnAt h k
  obtain ⟨i, hi, hpatience, hdrawn⟩ := exists_drawn h (g.gone k)
  have hdrawnAt : g.drawnAt k ≤ i := by
    by_contra hlater
    have hpassed := passed_of_lt_drawnAt hi (Nat.not_le.mp hlater)
    omega
  -- Counted from the words that are gone, the word that is drawn is within the patience.
  have hword (j : Nat) : (g.after (g.gone k)).word j = g.word (g.gone k + j) := word_after g (g.gone k) j
  have hback : g.gone k + (g.drawnAt k - g.gone k) = g.drawnAt k := Nat.add_sub_cancel' hgone
  have hnumber : number ((g.after (g.gone k)).word (g.drawnAt k - g.gone k)) < 1000 := by
    rw [hword, hback]
    exact number_drawnAt_lt h k
  rw [belowThousand_eq (k := g.drawnAt k - g.gone k) (by omega) ?_ hnumber, hword, hback, ← after_add, ← Nat.add_assoc, hback]
  · rfl
  · intro j hj
    rw [hword]
    exact passed_of_lt_drawnAt (Nat.le_add_right _ j) (by omega)

end Twister

/-! ### Names as numbers -/

/-- The value is a text of three ASCII digits, which read as the number. -/
def Value.Spells (v : Value) (n : Nat) : Prop :=
  ∃ cs : List Char, v = .text (String.ofList cs) ∧ cs.length = 3 ∧ (∀ c ∈ cs, c.isDigit = true)
    ∧ Decimal.digitsValue 10 cs = n

/-- What is spelled is one number. -/
theorem Value.Spells.unique {v : Value} {m n : Nat} (hm : v.Spells m) (hn : v.Spells n) : m = n := by
  obtain ⟨cs, hcs, -, -, rfl⟩ := hm
  obtain ⟨ds, hds, -, -, rfl⟩ := hn
  have hsame : cs = ds := String.ofList_injective (Value.text.inj (hcs.symm.trans hds))
  rw [hsame]

namespace NameSource

theorem spells_threeDigits {n : Nat} (h : n < 1000) : (threeDigits n).Spells n := by
  have hlength : (Decimal.digitChars n).length ≤ 3 := Nat.toDigits_length 10 n 3 (by decide) h
  refine ⟨Decimal.paddedDigits 3 n, rfl, ?_, (Decimal.isDigits_paddedDigits 3 n).all, Decimal.digitsValue_paddedDigits 3 n⟩
  rw [Decimal.paddedDigits, List.length_append, List.length_replicate, Nat.sub_add_cancel hlength]

/-- The name that is given out after so many others. -/
def nth (k : Nat) (s : NameSource) : Value := (s.after k).next.1

theorem after_succ (k : Nat) (s : NameSource) : s.after (k + 1) = (s.after k).next.2 := by
  induction k generalizing s with
  | zero => rfl
  | succ k ih => exact ih s.next.2

/-- The next names are those that are given out one after another. -/
theorem take_eq_map (n : Nat) (s : NameSource) : s.take n = (List.range n).map fun k => s.nth k := by
  induction n generalizing s with
  | zero => rfl
  | succ n ih =>
      rw [take, ih, List.range_succ_eq_map, List.map_cons, List.map_map]
      rfl

/-! ### Sources that count

A counter may begin below zero, and its names are then those of the remainders.  They come back
after a thousand because the number in the name determines the remainder.
-/

theorem after_sequential (k : Nat) (start : Int) : (sequential start).after k = sequential (start + k) := by
  induction k with
  | zero => exact congrArg sequential (Int.add_zero start).symm
  | succ k ih =>
      rw [after_succ, ih]
      exact congrArg sequential (Int.add_assoc start k 1)

theorem nth_sequential (k : Nat) (start : Int) :
    (sequential start).nth k = threeDigits ((start + k) % 1000).toNat := by
  rw [nth, after_sequential]
  rfl

theorem spells_sequential (k : Nat) (start : Int) : ((sequential start).nth k).Spells ((start + k) % 1000).toNat := by
  rw [nth_sequential]
  exact spells_threeDigits (by omega)

/-- A name comes back after a thousand. -/
theorem nth_sequential_eq_iff (j k : Nat) (start : Int) :
    (sequential start).nth j = (sequential start).nth k ↔ j ≡ k [MOD 1000] := by
  have hresidue : ((start + j) % 1000).toNat = ((start + k) % 1000).toNat ↔ j ≡ k [MOD 1000] := by
    rw [Nat.ModEq]
    omega
  rw [← hresidue]
  constructor
  · intro hname
    have hj := spells_sequential j start
    rw [hname] at hj
    exact hj.unique (spells_sequential k start)
  · intro hsame
    rw [nth_sequential, nth_sequential, hsame]

theorem nodup_take_sequential (start : Int) : ((sequential start).take 1000).Nodup := by
  rw [take_eq_map]
  refine List.Nodup.map_on ?_ List.nodup_range
  intro i hi j hj hname
  have hmod := (nth_sequential_eq_iff i j start).mp hname
  exact Nat.ModEq.eq_of_lt_of_lt hmod (List.mem_range.mp hi) (List.mem_range.mp hj)

/-! ### Seeded sources -/

variable {g : Twister}

theorem after_seeded (h : g.Whole) (k : Nat) : (seeded g).after k = seeded (g.after (g.gone k)) := by
  induction k with
  | zero => rfl
  | succ k ih => rw [after_succ, ih, next, Twister.belowThousand_after_gone h k]

theorem nth_seeded (h : g.Whole) (k : Nat) : (seeded g).nth k = threeDigits (Twister.number (g.word (g.drawnAt k))) := by
  rw [nth, after_seeded h, next, Twister.belowThousand_after_gone h k]

/-- **The names of sources.**  From whatever number a source counts, its names are three digits that read as the numbers
modulo a thousand, two of them are the same exactly when they are a multiple of a thousand apart, and so a thousand in a
row are all different.  Whatever key a generator starts from, and so for every seed, the names are three digits: those of
the words whose top ten bits are below a thousand, all of them and in order. -/
theorem spells_nth :
    (∀ (start : Int) (k : Nat), ∃ n : Nat, ((sequential start).nth k).Spells n ∧ (n : Int) = (start + k) % 1000)
      ∧ (∀ (start : Int) (j k : Nat), (sequential start).nth j = (sequential start).nth k ↔ j ≡ k [MOD 1000])
      ∧ (∀ (start : Int) (k : Nat), (((sequential start).after k).take 1000).Nodup)
      ∧ (∀ key : Array UInt32, ∃ place : Nat → Nat, StrictMono place
          ∧ (∀ i, (∃ k, place k = i) ↔ Twister.number ((Twister.ofKey key).word i) < 1000)
          ∧ ∀ k, ((seeded (.ofKey key)).nth k).Spells (Twister.number ((Twister.ofKey key).word (place k))))
      ∧ ∀ (seed : Int) (k : Nat), ∃ n < 1000, ((ofSeed seed).nth k).Spells n := by
  have hseeded (key : Array UInt32) (k : Nat) :
      ((seeded (.ofKey key)).nth k).Spells (Twister.number ((Twister.ofKey key).word ((Twister.ofKey key).drawnAt k))) := by
    have hwhole := Twister.whole_ofKey key
    rw [nth_seeded hwhole]
    exact spells_threeDigits (Twister.number_drawnAt_lt hwhole k)
  refine ⟨?_, fun start j k => nth_sequential_eq_iff j k start, ?_, ?_, ?_⟩
  · intro start k
    exact ⟨_, spells_sequential k start, by omega⟩
  · intro start k
    rw [after_sequential]
    exact nodup_take_sequential _
  · intro key
    have hwhole := Twister.whole_ofKey key
    exact ⟨(Twister.ofKey key).drawnAt, Twister.strictMono_drawnAt hwhole, Twister.exists_drawnAt_eq_iff hwhole, hseeded key⟩
  · intro seed k
    exact ⟨_, Twister.number_drawnAt_lt (Twister.whole_ofKey _) k, hseeded _ k⟩

/-- Counting from below zero. -/
example : (sequential (-2)).take 4 = [.text "998", .text "999", .text "000", .text "001"] := rfl

end NameSource

end PartProgram
