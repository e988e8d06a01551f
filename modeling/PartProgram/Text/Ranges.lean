/-
Sets of characters given as ranges of code points.

A property of the Unicode character database is a long list of ranges; this file says what such a list
means, so that each table needs to say only what it holds.
-/

namespace PartProgram.Text

/-- Ascending, disjoint ranges of code points, both ends included. -/
abbrev Ranges := List (Nat × Nat)

/-- Whether one of the ranges holds the character. -/
def Ranges.contains (r : Ranges) (c : Char) : Bool :=
  r.any fun (low, high) => decide (low ≤ c.toNat) && decide (c.toNat ≤ high)

theorem Ranges.contains_iff {r : Ranges} {c : Char} :
    r.contains c = true ↔ ∃ p ∈ r, p.1 ≤ c.toNat ∧ c.toNat ≤ p.2 := by
  simp [Ranges.contains]

end PartProgram.Text
