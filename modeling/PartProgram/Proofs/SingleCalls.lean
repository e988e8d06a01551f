/-
Calls of one line are atomic.

A directive other than the end looks at everything first and writes last: whether the program
is open, what it was given, the numbers under the strict policy and the unit come before the
one line that it adds, and the distance mode is set only behind the line.  An addition looks
at the listing and at the number first.  So a call of this kind either finds fault, and then
the program is what it was, or adds one entry to the buffer.

This is said of one call by the rules of what calls give, and of a whole history because the
rules are the runs wherever only a closed program has a listing.
-/
import PartProgram.Proofs.Outcomes

namespace PartProgram

section

variable [DigitLimit]

/-- Whether a call adds one line at most: it is a directive other than the end, or an addition. -/
def Call.isSingle : Call → Bool
  | .terminate _ | .eval | .assign _ => false
  | _ => true

/-- The program `q` has one entry more than `p`, and the given distance mode. -/
structure Program.OneMore (p : Program) (mode : DistanceMode) (q : Program) : Prop where
  lines : ∃ entry, q.lines = p.lines.push entry
  phase : q.phase = p.phase
  listing : q.listing = p.listing
  mode : q.mode = mode

omit [DigitLimit] in
theorem Program.oneMore_append (p : Program) (line : String) (mode : DistanceMode) :
    p.OneMore mode ((p.append line).inMode mode) := by
  rw [append_eq]
  exact ⟨⟨_, rfl⟩, rfl, rfl, rfl⟩

namespace Call

variable {d : Call} {p q : Program} {answer : Except ProgramError (Option String)}

/-- What was added as it is leaves the distance mode alone. -/
theorem modeAfter_of_addition {v : Value} (h : d.addition? = some v) (p : Program) : d.modeAfter p = p.mode := by
  cases d with
  | add line => rfl
  | addValue given => rfl
  | _ => cases h

/-- **One call.**  Either it fails and changes nothing, or it adds one entry. -/
theorem Gives.atomic (h : d.Gives p answer q) (hd : d.isSingle = true) :
    ((∃ e, answer = .error e) ∧ q = p) ∨ (answer = .ok none ∧ p.OneMore (d.modeAfter p) q) := by
  cases h with
  | refused hc hp => exact Or.inl ⟨⟨_, rfl⟩, rfl⟩
  | written ho hline => exact Or.inr ⟨rfl, p.oneMore_append _ _⟩
  | faulty ho hline => exact Or.inl ⟨⟨_, rfl⟩, rfl⟩
  | added hc hl =>
      have hmode := modeAfter_of_addition hc p
      rw [hmode, ← Program.append_inMode]
      exact Or.inr ⟨rfl, p.oneMore_append _ _⟩
  | stray hc hv hl hn => exact Or.inr ⟨rfl, ⟨_, rfl⟩, rfl, rfl, (modeAfter_of_addition hc p).symm⟩
  | unnumbered hc hv hl hn => exact Or.inl ⟨⟨_, rfl⟩, rfl⟩
  | late hc hl => exact Or.inl ⟨⟨_, rfl⟩, rfl⟩
  -- The other rules are those of ends, evaluations and assignments.
  | _ => cases hd

/-- **Single calls are atomic.**  Whatever was done to a program since it was opened, assignments and failures included,
a call of one line that fails leaves the program exactly as it was, and one that goes through adds one entry to the
buffer and sets the distance mode that was asked for. -/
theorem unchanged_of_single {c : Config} {names : NameSource} (h : (Program.openNext c names).1 = .ok p)
    (calls : List Call) (hd : d.isSingle = true) :
    (∀ e r, d.run (runAll calls p) = (.error e, r) → r = runAll calls p)
    ∧ ∀ answer r, d.run (runAll calls p) = (.ok answer, r) →
      answer = none ∧ (runAll calls p).OneMore (d.modeAfter (runAll calls p)) r := by
  obtain rfl := Program.opened_of_openNext h
  have ho := Program.isOpen_opened c (c.nextName names).1
  have hgives := gives_run (recorded_runAll ho.consistent calls).consistent d
  generalize runAll calls (Program.opened c (c.nextName names).1) = q at hgives
  constructor
  · intro e r hrun
    rw [hrun] at hgives
    rcases hgives.atomic hd with ⟨-, hsame⟩ | ⟨hok, -⟩
    · exact hsame
    · cases hok
  · intro answer r hrun
    rw [hrun] at hgives
    rcases hgives.atomic hd with ⟨⟨e, he⟩, -⟩ | ⟨hok, hmore⟩
    · cases he
    · exact ⟨Except.ok.inj hok, hmore⟩

end Call

end

/-- A unit that cannot be looked up was assigned, which shows only behind the position and the policy. -/
theorem Call.unchanged_of_single_of_unit :
    let c : Config := { Config.standard with name := some "1" }
    let calls : List Call := [.assign (.unit (.list []))]
    let d : Call := .linearMove (.tuple [.int 1]) .null
    d.isSingle = true
    ∧ ∃ p, (Program.openNext c .standard).1 = .ok p
      ∧ d.run (runAll calls p) = (.error (.word (.unit ⟨"list"⟩)), runAll calls p) := by
  intro c calls d
  have hopen : (Program.openNext c .standard).1 = .ok (Program.opened c "1") :=
    Program.openNext_of_isFinite rfl (by decide +kernel) (by decide +kernel)
  have ho := Program.isOpen_opened c "1"
  have hfollows := Program.follows_opened c "1"
  generalize Program.opened c "1" = p at hopen ho hfollows
  let q := (Assignment.unit (.list [])).apply p
  have hq : runAll calls p = q := congrArg Prod.snd (Gives.assigned _).run_eq
  have hstrict : q.config.strict = false := congrArg Config.strict hfollows.config
  have hline : d.line? q = some (.error (.word (.unit ⟨"list"⟩))) := by
    show some (q.motion .linear ⟨.int 1, .null, .null⟩ .null) = _
    rw [Program.motion_eq, Program.lineFor, Config.judge_of_permissive hstrict]
    rfl
  have hfails : (d.run (runAll calls p)).1 = .error (.word (.unit ⟨"list"⟩)) := by
    rw [hq]
    exact congrArg Prod.fst (run_of_open (p := q) ⟨ho.phase, ho.listing⟩ hline)
  obtain ⟨hsame, -⟩ := unchanged_of_single (d := d) hopen calls rfl
  exact ⟨rfl, p, hopen, Prod.ext hfails (hsame _ _ (Prod.ext hfails rfl))⟩

end PartProgram
