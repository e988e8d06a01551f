/-
The words of the twister as one sequence.

A generator turns its whole state over at once and then gives out the words one by one.  Turning
works in place, from the first word to the last, so a word is made from words that were turned
before it and from words that were not.  Seen as one sequence, the states written one behind the
other, there is no difference: every word is made in the same way of three words before it, and the
places of these are 624, 623 and 227 words back.  That is `flows_row`, and `word_eq` says that what
is given out are the words of this sequence, tempered.
-/
import Mathlib.Logic.Function.Iterate
import PartProgram.Naming.Twister

namespace PartProgram.Twister

/-! ### One word of the state -/

/-- The highest bit of one word and the other bits of another. -/
def joined (high low : UInt32) : UInt32 := (high &&& 0x80000000) ||| (low &&& 0x7fffffff)

/-- The bits that are mixed into a word where the lowest bit is set. -/
def oddMask : UInt32 := 0x9908b0df

/-- The word that is made of three others, the first two joined and the third. -/
def twist (high low far : UInt32) : UInt32 :=
  far ^^^ (joined high low >>> 1) ^^^ (if joined high low &&& 1 = 1 then oddMask else 0)

/-- How far the third of these words is behind the first. -/
def reach : Nat := 397

/-- Every word is twisted from three words before it. -/
def Flows (x : Nat → UInt32) : Prop := ∀ k, x (k + size) = twist (x k) (x (k + 1)) (x (k + reach))

theorem Flows.shift {x : Nat → UInt32} (h : Flows x) (m : Nat) : Flows fun k => x (m + k) := by
  intro k
  simpa only [Nat.add_assoc] using h (m + k)

variable {ws : Array UInt32} {i j n : Nat}

theorem wordAt_of_lt (h : i < size) : wordAt ws i = ws.getD i 0 := by
  rw [wordAt, Nat.mod_eq_of_lt h]

theorem wordAt_add_size (ws : Array UInt32) (i : Nat) : wordAt ws (i + size) = wordAt ws i := by
  rw [wordAt, Nat.add_mod_right, wordAt]

theorem wordAt_setIfInBounds_self (hsize : ws.size = size) (hi : i < size) (w : UInt32) :
    wordAt (ws.setIfInBounds i w) i = w := by
  rw [wordAt_of_lt hi, Array.getD_eq_getD_getElem?, Array.getElem?_setIfInBounds_self_of_lt (hsize.symm ▸ hi)]
  rfl

theorem wordAt_setIfInBounds_ne (hj : j < size) (hne : i ≠ j) (w : UInt32) :
    wordAt (ws.setIfInBounds i w) j = wordAt ws j := by
  rw [wordAt_of_lt hj, wordAt_of_lt hj, Array.getD_eq_getD_getElem?, Array.getD_eq_getD_getElem?,
    Array.getElem?_setIfInBounds_ne hne]

/-! ### Turning a state over

A word that is turned looks at the next one and at one 397 places on, and places count on from
the beginning of the state where they leave it.  What is found there has been turned already,
and what is found before the end has not.  Both are what the sequence has at these places, since
it goes on with the next state there.
-/

/-- The state with one word turned. -/
def turnWord (ws : Array UInt32) (i : Nat) : Array UInt32 :=
  ws.setIfInBounds i (twist (wordAt ws i) (wordAt ws (i + 1)) (wordAt ws (i + reach)))

/-- The state with the first `n` words turned. -/
def turnedTo (ws : Array UInt32) (n : Nat) : Array UInt32 := (List.range n).foldl turnWord ws

theorem turned_eq (ws : Array UInt32) : turned ws = turnedTo ws size := rfl

theorem turnedTo_succ (ws : Array UInt32) (n : Nat) : turnedTo ws (n + 1) = turnWord (turnedTo ws n) n := by
  rw [turnedTo, List.range_succ, List.foldl_append]
  rfl

theorem size_turnedTo (ws : Array UInt32) (n : Nat) : (turnedTo ws n).size = ws.size := by
  induction n with
  | zero => rfl
  | succ n ih => rw [turnedTo_succ, turnWord, Array.size_setIfInBounds, ih]

theorem size_turned (ws : Array UInt32) : (turned ws).size = ws.size := size_turnedTo ws size

/-- Words are as they were until it is their turn. -/
theorem wordAt_turnedTo_of_le (h : n ≤ j) (hj : j < size) : wordAt (turnedTo ws n) j = wordAt ws j := by
  induction n with
  | zero => rfl
  | succ n ih => rw [turnedTo_succ, turnWord, wordAt_setIfInBounds_ne hj (by omega), ih (by omega)]

/-- Words stay as they are once they are turned. -/
theorem wordAt_turnedTo_of_lt (h : j < n) (hn : n ≤ size) : wordAt (turnedTo ws n) j = wordAt (turned ws) j := by
  have hlater (d : Nat) (hd : n + d ≤ size) : wordAt (turnedTo ws (n + d)) j = wordAt (turnedTo ws n) j := by
    induction d with
    | zero => rfl
    | succ d ih =>
        rw [← Nat.add_assoc, turnedTo_succ, turnWord, wordAt_setIfInBounds_ne (by omega) (by omega), ih (by omega)]
  have hlast := hlater (size - n) (by omega)
  rw [Nat.add_sub_cancel' hn] at hlast
  rw [turned_eq, hlast]

/-- A word is turned when all before it are. -/
theorem wordAt_turned (hsize : ws.size = size) (hi : i < size) : wordAt (turned ws) i =
    twist (wordAt (turnedTo ws i) i) (wordAt (turnedTo ws i) (i + 1)) (wordAt (turnedTo ws i) (i + reach)) := by
  rw [← wordAt_turnedTo_of_lt (Nat.lt_succ_self i) hi, turnedTo_succ]
  exact wordAt_setIfInBounds_self ((size_turnedTo ws i).trans hsize) hi _

/-! ### The sequence -/

/-- The state and all that come of it by turning, one behind the other. -/
def row (ws : Array UInt32) (k : Nat) : UInt32 := wordAt (turned^[k / size] ws) (k % size)

theorem row_of_lt (h : i < size) : row ws i = wordAt ws i := by
  rw [row, Nat.div_eq_of_lt h, Nat.mod_eq_of_lt h]
  rfl

theorem row_turned (ws : Array UInt32) (k : Nat) : row (turned ws) k = row ws (k + size) := by
  rw [row, row, Nat.add_div_right k (by decide), Nat.add_mod_right, Function.iterate_succ_apply]

/-- While a word is turned, the words from it on are those of the sequence. -/
theorem wordAt_turnedTo_eq_row (hi : i < size) (hj : j < size) :
    wordAt (turnedTo ws i) (i + j) = row ws (i + j) := by
  by_cases h : i + j < size
  · rw [wordAt_turnedTo_of_le (Nat.le_add_right i j) h, row_of_lt h]
  · obtain ⟨k, hk⟩ := Nat.exists_eq_add_of_le (Nat.not_lt.mp h)
    rw [hk, Nat.add_comm size k, wordAt_add_size, ← row_turned, row_of_lt (by omega),
      wordAt_turnedTo_of_lt (by omega) (Nat.le_of_lt hi)]

/-- The sequence flows as long as the first state does. -/
theorem row_add_size_of_lt (hsize : ws.size = size) (hi : i < size) :
    row ws (i + size) = twist (row ws i) (row ws (i + 1)) (row ws (i + reach)) := by
  have hself : wordAt (turnedTo ws i) i = row ws i := wordAt_turnedTo_eq_row (j := 0) hi (by decide)
  rw [← row_turned, row_of_lt hi, wordAt_turned hsize hi, hself, wordAt_turnedTo_eq_row hi (by decide),
    wordAt_turnedTo_eq_row hi (by decide)]

/-- **The words of the states** are one sequence. -/
theorem flows_row (hsize : ws.size = size) : Flows (row ws) := by
  intro k
  induction k using Nat.strongRecOn generalizing ws with
  | ind k ih =>
      by_cases hk : k < size
      · exact row_add_size_of_lt hsize hk
      · obtain ⟨d, rfl⟩ := Nat.exists_eq_add_of_le (Nat.not_lt.mp hk)
        have hblock := ih d (Nat.lt_add_of_pos_left (by decide)) ((size_turned ws).trans hsize)
        rw [row_turned, row_turned, row_turned, row_turned] at hblock
        rw [Nat.add_comm size d, hblock, Nat.add_right_comm d size 1, Nat.add_right_comm d size reach]

/-! ### What is given out

A generator keeps its state and its place in it, and turns the state over when the place is at
the end.  Seen from the sequence both come to going on by one.
-/

/-- The generator after some words have been given out. -/
def after : Nat → Twister → Twister
  | 0, g => g
  | count + 1, g => after count g.next.2

/-- The word that is given out after so many others. -/
def word (g : Twister) (k : Nat) : UInt32 := (g.after k).next.1

theorem after_add (g : Twister) (m n : Nat) : g.after (m + n) = (g.after m).after n := by
  induction m generalizing g with
  | zero => rw [Nat.zero_add, after]
  | succ m ih => rw [Nat.add_right_comm, after, after, ih]

theorem word_after (g : Twister) (m k : Nat) : (g.after m).word k = g.word (m + k) := by
  rw [word, word, after_add]

/-- A generator with a whole state, whose next word is in it or is the first one of the next state. -/
structure Whole (g : Twister) : Prop where
  size : g.words.size = Twister.size
  place : g.place ≤ Twister.size

variable {g : Twister}

theorem next_of_lt (h : g.place < size) : g.next = (tempered (wordAt g.words g.place), ⟨g.words, g.place + 1⟩) := by
  rw [next, if_pos h]

theorem next_of_not_lt (h : ¬ g.place < size) : g.next = (tempered (wordAt (turned g.words) 0), ⟨turned g.words, 1⟩) := by
  rw [next, if_neg h]

theorem whole_of_size (hsize : ws.size = size) (hi : i ≤ size) : Whole ⟨ws, i⟩ := ⟨hsize, hi⟩

theorem Whole.next (h : g.Whole) : g.next.2.Whole := by
  by_cases hplace : g.place < Twister.size
  · rw [next_of_lt hplace]
    exact ⟨h.size, hplace⟩
  · rw [next_of_not_lt hplace]
    exact whole_of_size ((size_turned g.words).trans h.size) (by decide)

theorem Whole.after (h : g.Whole) (k : Nat) : (g.after k).Whole := by
  induction k generalizing g with
  | zero => exact h
  | succ k ih => exact ih h.next

/-- The words that a generator gives out are those of its sequence from its place on. -/
theorem word_eq (h : g.Whole) (k : Nat) : g.word k = tempered (row g.words (g.place + k)) := by
  induction k generalizing g with
  | zero =>
      by_cases hplace : g.place < size
      · rw [Nat.add_zero, row_of_lt hplace, word, after, next_of_lt hplace]
      · have hend : g.place = 0 + size := by
          have hle := h.place
          omega
        rw [Nat.add_zero, hend, ← row_turned, row_of_lt (by decide), word, after, next_of_not_lt hplace]
  | succ k ih =>
      have hlater : g.word (k + 1) = g.next.2.word k := rfl
      rw [hlater, ih h.next]
      by_cases hplace : g.place < size
      · rw [next_of_lt hplace, Nat.add_assoc, Nat.add_comm 1 k]
      · have hend : g.place = size := Nat.le_antisymm h.place (Nat.not_lt.mp hplace)
        rw [next_of_not_lt hplace, hend, row_turned, Nat.add_comm 1 k, Nat.add_comm size]

/-! ### How a generator starts -/

theorem size_base : base.size = size := by
  have hpushes (f : Array UInt32 → Nat → UInt32) (places : List Nat) (ws : Array UInt32) :
      (places.foldl (fun ws i => ws.push (f ws i)) ws).size = ws.size + places.length := by
    induction places generalizing ws with
    | nil => rfl
    | cons i rest ih =>
        rw [List.foldl_cons, ih, Array.size_push, List.length_cons]
        omega
  rw [base, hpushes, List.length_range]
  rfl

theorem size_mixStep (f : UInt32 → UInt32 → UInt32) (state : Array UInt32 × Nat) :
    (mixStep f state).1.size = state.1.size := by
  unfold mixStep
  dsimp only
  split
  · rw [Array.size_setIfInBounds]
  · rw [Array.size_setIfInBounds, Array.size_setIfInBounds]

/-- Rounds that keep the size keep it together. -/
theorem size_foldl {f : Array UInt32 × Nat → Nat → Array UInt32 × Nat} (hf : ∀ state j, (f state j).1.size = state.1.size)
    (rounds : List Nat) (state : Array UInt32 × Nat) : (rounds.foldl f state).1.size = state.1.size := by
  induction rounds generalizing state with
  | nil => rfl
  | cons j rest ih => rw [List.foldl_cons, ih, hf]

/-- **Every key starts a whole generator.** -/
theorem whole_ofKey (key : Array UInt32) : (ofKey key).Whole := by
  refine whole_of_size ?_ (Nat.le_refl size)
  rw [Array.size_setIfInBounds, size_foldl fun _ _ => size_mixStep _ _, size_foldl fun _ _ => size_mixStep _ _]
  dsimp only
  exact size_base

end PartProgram.Twister
