/-
What the permissive policy rejects.

The permissive policy takes any value for a number and any text for a unit, and falls back
where a distance mode of the settings is not known.  What it cannot do without is a value
that can be taken apart: the axes of a position have to come from somewhere, and so does the
mode that a program is switched to.  There is nothing else that a permissive reading or a
permissive program rejects.

A directive can only fail at its line, and the line of a motion always comes about once the
policy lets the numbers through and the unit is a text.  The unit of a configuration is one,
and it stays the unit of the program as long as no attribute is assigned.

All of this is so as far as texts can be made of the values that are given.  Without a limit
of digits they always can.  Under one, what is too large for it makes a name, a unit, the
words of a motion or of a refusal fail, and that is no rejection; so it is told apart from
those, and then it is the only other way to fail.
-/
import PartProgram.Proofs.NumericModes
import PartProgram.Proofs.StrictErrors

namespace PartProgram

section

variable [DigitLimit]

/-- The settings that are read as texts can be written: the name, where there is one, and the unit. -/
def Settings.Writes (s : Settings) : Prop :=
  ((s .name).isTrue = true → (s .name).isWritten = true) ∧ (s .unit).isWritten = true

namespace Call

/-- What a directive says on a program in a unit can be written: the numbers of its motion, or the position that it
cannot be carried out with. -/
structure Writes (d : Call) (unit : String) (p : Program) : Prop where
  motion : ∀ m, d.motion? p = some m → m.IsWritten (LengthUnit.factor unit)
  position : ∀ v, d.refusedPosition? = some v → v.isWritten = true

end Call

/-! ### The three ends

What is asked for is refused where it is unfit and goes through where it is not, and in either
case only where the texts that this takes can be made.
-/

section Directives

variable {p : Program} {u : String} {d : Call} {c : Config}

namespace Call

end Call

end Directives

end

end PartProgram
