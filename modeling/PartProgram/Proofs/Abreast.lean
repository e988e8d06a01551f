/-
Two runs abreast.

To compare two runs one need not know what either of them does.  It is enough that they start
from programs in some relation, and that each step finds the same way on from such programs: both
go through, to programs that are related again, or both fail.  `Abreast` says this of two results,
with one relation for success and one for failure, and it passes from the steps to what is made
of them.  What an operation and an evaluation come to is what the call behind them comes to.

A generator is such a run behind an opening.  What it answers and says depends on the program it
opens, which the operations have no say in, and what it leaves of the names on the opening alone.
-/
import PartProgram.Proofs.Outcomes

namespace PartProgram

variable [DigitLimit]

namespace Writing

variable {α β γ δ : Type} {K : α → Program → β → Program → Prop}
  {L : ProgramError → Program → ProgramError → Program → Prop} {p q : Program}

/-- Two results that agree: both actions went through, or both failed. -/
inductive Abreast (K : α → Program → β → Program → Prop) (L : ProgramError → Program → ProgramError → Program → Prop) :
    EStateM.Result ProgramError Program α → EStateM.Result ProgramError Program β → Prop where
  | ok {a : α} {b : β} {p q : Program} (h : K a p b q) : Abreast K L (.ok a p) (.ok b q)
  | error {e e' : ProgramError} {p q : Program} (h : L e p e' q) : Abreast K L (.error e p) (.error e' q)

omit [DigitLimit] in
/-- Runs go on abreast where their continuations do. -/
theorem Abreast.bind {M : γ → Program → δ → Program → Prop} {m : Writing α} {m' : Writing β} {k : α → Writing γ}
    {k' : β → Writing δ} (h : Abreast K L (m.run p) (m'.run q))
    (hk : ∀ a p b q, K a p b q → Abreast M L ((k a).run p) ((k' b).run q)) :
    Abreast M L ((m >>= k).run p) ((m' >>= k').run q) := by
  rw [EStateM.run_bind, EStateM.run_bind]
  generalize m.run p = r at h ⊢
  generalize m'.run q = r' at h ⊢
  cases h with
  | ok h => exact hk _ _ _ _ h
  | error h => exact .error h

omit [DigitLimit] in
/-- What is only answered in another way ran abreast before. -/
theorem abreast_of_map {M : γ → Program → δ → Program → Prop} {f : α → γ} {g : β → δ} {m : Writing α} {m' : Writing β}
    (hM : ∀ a p b q, M (f a) p (g b) q → K a p b q)
    (h : Abreast M L ((do return f (← m) : Writing γ).run p) ((do return g (← m') : Writing δ).run q)) :
    Abreast K L (m.run p) (m'.run q) := by
  rw [EStateM.run_bind, EStateM.run_bind] at h
  cases hm : m.run p with
  | ok a p' =>
      cases hm' : m'.run q with
      | ok b q' =>
          rw [hm, hm'] at h
          cases h with
          | ok h => exact .ok (hM _ _ _ _ h)
      | error e q' =>
          rw [hm, hm'] at h
          cases h
  | error e p' =>
      cases hm' : m'.run q with
      | ok b q' =>
          rw [hm, hm'] at h
          cases h
      | error e' q' =>
          rw [hm, hm'] at h
          cases h with
          | error h => exact .error h

end Writing

namespace Call

/-- The result of making a call, from what it answers and leaves. -/
theorem perform_run (d : Call) (p : Program) : d.perform.run p = match d.run p with
    | (.ok answer, q) => .ok answer q
    | (.error e, q) => .error e q := by
  rw [run]
  cases d.perform.run p with
  | ok answer q => rfl
  | error e q => rfl

end Call

namespace Writing

variable {K : Option String → Program → Option String → Program → Prop}
  {L : ProgramError → Program → ProgramError → Program → Prop} {p q : Program}

/-- An operation goes abreast where its call does. -/
theorem abreast_carryOut {op : Operation} {d : Call} (hcall : op.call? = some d)
    {M : Unit → Program → Unit → Program → Prop} (hM : ∀ a p b q, K a p b q → M () p () q)
    (h : Abreast K L (d.perform.run p) (d.perform.run q)) :
    Abreast M L ((carryOut op).run p) ((carryOut op).run q) := by
  have hcarry : carryOut op = discard d.perform := by rw [carryOut, hcall]
  rw [hcarry, run_discard, run_discard]
  generalize d.perform.run p = r at h ⊢
  generalize d.perform.run q = r' at h ⊢
  cases h with
  | ok h => exact .ok (hM _ _ _ _ h)
  | error h => exact .error h

/-- An evaluation goes abreast where its call does. -/
theorem abreast_eval {M : String → Program → String → Program → Prop}
    (hM : ∀ a p b q, K (some a) p (some b) q → M a p b q)
    (h : Abreast K L (Call.eval.perform.run p) (Call.eval.perform.run q)) :
    Abreast M L (eval.run p) (eval.run q) := abreast_of_map hM h

end Writing

/-! ### Generators -/

namespace Generator

/-- What is answered and said once a program has been opened, or not. -/
def respond (made : Except ProgramError Program) (ops : List Operation) : Except ProgramError String × List Note :=
  match made with
  | .error e => (.error e, [])
  | .ok p => match (do Writing.carryOutAll ops; Writing.eval : Writing String).run p with
    | .ok listing q => (.ok listing, q.notes.toList ++ [finished q ops.length])
    | .error e q => (.error e, q.notes.toList)

/-- Operations have no say in the program that is opened, nor in the names that are left. -/
theorem generate_eq (g : Generator) (ops : List Operation) :
    g.generate ops = ((respond g.openNext.1 ops).1, (respond g.openNext.1 ops).2, g.openNext.2) := by
  rw [generate, build]
  rcases g.openNext with ⟨made, after⟩
  cases made with
  | error e => rfl
  | ok p =>
      simp only [respond, EStateM.run_bind]
      cases (Writing.carryOutAll ops).run p with
      | error e q => rfl
      | ok _ q =>
          cases hq : Writing.eval.run q with
          | error e r => simp only [hq]
          | ok listing r => simp only [hq]

end Generator

end PartProgram
