/-
Checks that report everything.

The outcome of a check is a value or the issues that were met.  Checks of several fields are put side by side:
their issues add up in order, and the values are there when none of them met any.
-/
import PartProgram.Job.Issue

namespace PartProgram

/-- The outcome of a check. -/
inductive Checked (α : Type) where
  | accepted (a : α)
  | refused (issues : List Issue)

namespace Checked

variable {α β : Type}

/-- A check that meets one problem, at the place that is looked at. -/
def problem (p : Problem) : Checked α := refused [⟨[], p⟩]

/-- The issues of a check. -/
def issues : Checked α → List Issue
  | accepted _ => []
  | refused is => is

/-- The check with its value changed. -/
def map (f : α → β) : Checked α → Checked β
  | accepted a => accepted (f a)
  | refused is => refused is

/-- The check with a further one behind it, made only where it is accepted. -/
def andThen (c : Checked α) (f : α → Checked β) : Checked β :=
  match c with
  | accepted a => f a
  | refused is => refused is

/-- Two checks side by side. -/
def beside (f : Checked (α → β)) (c : Checked α) : Checked β :=
  match f, c with
  | accepted f, accepted a => accepted (f a)
  | accepted _, refused is => refused is
  | refused is, c => refused (is ++ c.issues)

/-- The check with its issues seen from one step further out. -/
def under (step : PathStep) : Checked α → Checked α
  | accepted a => accepted a
  | refused is => refused (is.map (·.under step))

/-- The checks of the items of a list; `index` is the number of items before. -/
def each (f : α → Checked β) (index : Nat) : List α → Checked (List β)
  | [] => accepted []
  | a :: rest =>
    ((f a).under (.index index)).map (fun b bs => b :: bs) |>.beside (each f (index + 1) rest)

end Checked

end PartProgram
