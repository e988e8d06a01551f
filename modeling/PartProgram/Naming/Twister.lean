/-
The Mersenne twister.

A generator of pseudo-random words with 624 words of state.  It starts from a key of words that are mixed into
a fixed first state, and gives out the state word by word, turning it over whenever it is used up.
-/

namespace PartProgram

/-- A generator: its state, and the place of the word that comes next. -/
structure Twister where
  words : Array UInt32
  place : Nat

namespace Twister

/-- The number of words of state. -/
def size : Nat := 624

/-- The word at a place, places counted round. -/
def wordAt (words : Array UInt32) (i : Nat) : UInt32 := words.getD (i % size) 0

/-- The mixing that both halves of the start share. -/
def mixed (w : UInt32) : UInt32 := w ^^^ (w >>> 30)

/-- The state before a key is mixed in. -/
def base : Array UInt32 :=
  (List.range (size - 1)).foldl
    (fun ws i => ws.push (1812433253 * mixed (wordAt ws i) + (i + 1).toUInt32)) #[19650218]

/-- One round of mixing.  Place 0 is skipped: after the last place its word is copied to the front, and the
round goes on at place 1. -/
def mixStep (f : UInt32 → UInt32 → UInt32) (state : Array UInt32 × Nat) : Array UInt32 × Nat :=
  let (ws, i) := state
  let ws := ws.setIfInBounds i (f (wordAt ws i) (mixed (wordAt ws (i - 1))))
  if i + 1 < size then (ws, i + 1) else (ws.setIfInBounds 0 (wordAt ws (size - 1)), 1)

/-- The generator that a key of words starts. -/
def ofKey (key : Array UInt32) : Twister :=
  let rounds := max size key.size
  let first := (List.range rounds).foldl
    (fun s j =>
      let k := j % key.size
      mixStep (fun w m => (w ^^^ (m * 1664525)) + key.getD k 0 + k.toUInt32) s) (base, 1)
  let second := (List.range (size - 1)).foldl
    (fun s _ => mixStep (fun w m => (w ^^^ (m * 1566083941)) - s.2.toUInt32) s) first
  ⟨second.1.setIfInBounds 0 0x80000000, size⟩

/-- The words of a natural number, the lowest first; zero has one word. -/
def keyWords (n : Nat) : List UInt32 :=
  if _h : n < 2 ^ 32 then [n.toUInt32] else (n % 2 ^ 32).toUInt32 :: keyWords (n / 2 ^ 32)
termination_by n

/-- The generator of a seed.  The sign of the seed makes no difference. -/
def ofSeed (seed : Int) : Twister := ofKey (keyWords seed.natAbs).toArray

/-- The state turned over. -/
def turned (words : Array UInt32) : Array UInt32 :=
  (List.range size).foldl
    (fun ws i =>
      let y := (wordAt ws i &&& 0x80000000) ||| (wordAt ws (i + 1) &&& 0x7fffffff)
      let odd : UInt32 := if y &&& 1 = 1 then 0x9908b0df else 0
      ws.setIfInBounds i (wordAt ws (i + 397) ^^^ (y >>> 1) ^^^ odd)) words

/-- The bits of a state word spread over the word that is given out. -/
def tempered (y : UInt32) : UInt32 :=
  let y := y ^^^ (y >>> 11)
  let y := y ^^^ ((y <<< 7) &&& 0x9d2c5680)
  let y := y ^^^ ((y <<< 15) &&& 0xefc60000)
  y ^^^ (y >>> 18)

/-- The next word, and the generator after it. -/
def next (g : Twister) : UInt32 × Twister :=
  let g := if g.place < size then g else ⟨turned g.words, 0⟩
  (tempered (wordAt g.words g.place), { g with place := g.place + 1 })

/-- More words than are ever passed over one after another. -/
def patience : Nat := 20000

/-- The next number below a thousand: words are drawn until the top ten bits of one are below it.  `fuel` is
the greatest number of words passed over. -/
def belowThousand : Nat → Twister → Nat × Twister
  | 0, g => (((g.next.1 >>> 22).toNat) % 1000, g.next.2)
  | fuel + 1, g =>
    let n := (g.next.1 >>> 22).toNat
    if n < 1000 then (n, g.next.2) else belowThousand fuel g.next.2

end Twister

end PartProgram
