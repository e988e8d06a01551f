/-
Where the names of programs come from.

A program without a name of its own takes the next one from a source.  Names are values, since a source may
give out anything; the program writes them in upper case.
-/
import PartProgram.Naming.Twister
import PartProgram.Text.Case
import PartProgram.Value.Printer

namespace PartProgram

/-- A source of names. -/
inductive NameSource where
  /-- Three random digits. -/
  | seeded (generator : Twister)
  /-- Consecutive numbers modulo a thousand, in three digits. -/
  | sequential (count : Int)
  /-- Names listed by their index. -/
  | listed (name : Nat → Value) (index : Nat)

namespace NameSource

/-- The source of the random names of a seed. -/
def ofSeed (seed : Int) : NameSource := seeded (Twister.ofSeed seed)

/-- The source that gives out one value for ever. -/
def fixed (name : Value) : NameSource := listed (fun _ => name) 0

/-- The source of programs that are given none. -/
def standard : NameSource := ofSeed 0

/-- A number in three digits. -/
def threeDigits (n : Nat) : Value := .text (Decimal.paddedText 3 n)

/-- The next name, and the source after it. -/
def next : NameSource → Value × NameSource
  | seeded g =>
    let (n, g) := g.belowThousand Twister.patience
    (threeDigits n, seeded g)
  | sequential count => (threeDigits (count.emod 1000).toNat, sequential (count + 1))
  | listed name index => (name index, listed name (index + 1))

/-- The source after some names have been given out. -/
def after : Nat → NameSource → NameSource
  | 0, s => s
  | count + 1, s => after count s.next.2

/-- The next `count` names. -/
def take : Nat → NameSource → List Value
  | 0, _ => []
  | count + 1, s => s.next.1 :: take count s.next.2

end NameSource

end PartProgram
