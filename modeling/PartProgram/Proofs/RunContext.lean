/-
What goes along with the records of a run.

A process may run the command many times, and all its runs write into one journal, whose context
stays from one run to the next.  A run begins by pushing the name of its job, which takes the
place of the last one; it pushes the name of its program once there is one; and however it ends,
that name is popped.  So between two runs the context is empty or names the last job, and within a
run there are two kinds of records: those up to the program, which go along with the job, and
those behind it, which go along with the job and the program.

The context that an entry keeps is the one that its record is written with: what the console shows
of a run is made of its entries alone.
-/
import PartProgram.Proofs.Effects
import PartProgram.Proofs.Outlets
import PartProgram.Yaml.Document

namespace PartProgram

section

variable [DigitLimit]

/-! ### What the console shows

The console is the one outlet whose texts are kept by the session, and they are compared with
the entries of the journal.  A record that cannot be written is an entry all the same, of which
nothing is shown.
-/

/-- What an outlet of this kind shows of an entry on the console.  A record that cannot be written is left out. -/
def OutletKind.shows (e : Journal.Entry) : OutletKind → String
  | .console colour => match e.record.text .human colour e.context with
    | .ok line => line ++ "\n"
    | .error _ => ""
  | _ => ""

namespace Journal

/-- What some outlets show of an entry. -/
def shownOn (e : Entry) : List Outlet → String
  | [] => ""
  | o :: rest => o.kind.shows e ++ shownOn e rest

/-- What some outlets show of entries, the latest of which comes first. -/
def transcript (os : List Outlet) : List Entry → String
  | [] => ""
  | e :: older => transcript os older ++ shownOn e os

theorem transcript_append (os : List Outlet) (late early : List Entry) :
    transcript os (late ++ early) = transcript os early ++ transcript os late := by
  induction late with
  | nil => exact String.append_empty.symm
  | cons e older ih => rw [List.cons_append, transcript, transcript, ih, String.append_assoc]

theorem shownOn_of_unplaced {os os' : List Outlet} (h : os'.map Outlet.unplaced = os.map Outlet.unplaced) (e : Entry) :
    shownOn e os' = shownOn e os := by
  have hunplaced (os : List Outlet) : shownOn e (os.map Outlet.unplaced) = shownOn e os := by
    induction os with
    | nil => rfl
    | cons o rest ih =>
        obtain ⟨n, kind⟩ := o
        rw [List.map_cons, shownOn, shownOn, ih]
        cases kind with
        | console colour => rfl
        | file place form => rfl
        | other => rfl
  rw [← hunplaced os', h, hunplaced]

theorem transcript_of_unplaced {os os' : List Outlet} (h : os'.map Outlet.unplaced = os.map Outlet.unplaced)
    (entries : List Entry) : transcript os' entries = transcript os entries := by
  induction entries with
  | nil => rfl
  | cons e older ih => rw [transcript, transcript, ih, shownOn_of_unplaced h]

end Journal

namespace Session

variable {s : Session}

omit [DigitLimit] in
theorem shown_appendLine (line : String) (place : Option Place) (s : Session) :
    (s.appendLine line place).shown = s.shown := by
  unfold appendLine
  cases place with
  | none => rfl
  | some place =>
      dsimp only
      split
      · rfl
      · rfl

theorem shown_write (r : Record) (s : Session) (o : Outlet) :
    (write r s o).shown = s.shown ++ o.kind.shows ⟨r, s.journal.context⟩ := by
  obtain ⟨n, kind⟩ := o
  unfold write OutletKind.shows
  cases kind with
  | console colour =>
      dsimp only
      cases r.text .human colour s.journal.context with
      | ok line => exact String.append_assoc
      | error e => exact String.append_empty.symm
  | file place form =>
      dsimp only
      cases r.text form false s.journal.context with
      | ok line =>
          rw [shown_appendLine]
          exact String.append_empty.symm
      | error e => exact String.append_empty.symm
  | other => exact String.append_empty.symm

theorem shown_foldl_write (r : Record) (os : List Outlet) (s : Session) :
    (os.foldl (write r) s).shown = s.shown ++ Journal.shownOn ⟨r, s.journal.context⟩ os := by
  induction os generalizing s with
  | nil => exact String.append_empty.symm
  | cons o rest ih =>
      rw [List.foldl_cons, ih, shown_write, (moved_write r s o).context, Journal.shownOn, String.append_assoc]

omit [DigitLimit] in
theorem shown_onDisk {ε δ α : Type} (wrap : δ → ε) (work : EStateM δ Disk α) (s : Session) :
    (leaves ((onDisk wrap work).run s)).shown = s.shown := by
  rw [run_onDisk]
  cases work.run s.disk with
  | ok a d => rfl
  | error e d => rfl

omit [DigitLimit] in
/-- Setting a journal up shows nothing. -/
theorem keeps_shown_setUp (text : String) (what : Setup) : Keeps (fun s : Session => s.shown = text) (setUp what) := by
  have hjournal (f : Journal → Journal) :
      Keeps (fun s : Session => s.shown = text) (onJournal f : EStateM SetupError Session Unit) := fun _ hs => hs
  have hdisk {α : Type} (work : FileWork α) : Keeps (fun s : Session => s.shown = text) (onDisk SetupError.file work) :=
    fun s hs => (shown_onDisk _ work s).trans hs
  have hconsole : Keeps (fun s : Session => s.shown = text) (openConsole what) := by
    unfold openConsole
    split
    · exact Keeps.get.bind fun _ => hjournal _
    · exact .pure ()
  have hfile : Keeps (fun s : Session => s.shown = text) (openFile what.file what.form) := by
    unfold openFile
    split
    · exact .throw _
    · exact (hdisk _).bind fun _ => (hdisk _).bind fun _ => Keeps.get.bind fun _ => .pure _
  have hlog : Keeps (fun s : Session => s.shown = text) (openLog what) := by
    unfold openLog
    split
    · exact hfile.bind fun _ => hjournal _
    · exact .pure ()
  cases hlevel : threshold what.level with
  | error e =>
      rw [setUp_eq_throw hlevel]
      exact .throw e
  | ok level =>
      rw [setUp_eq hlevel]
      exact (hjournal _).bind fun _ => hconsole.bind fun _ => hlog.bind fun _ => (hjournal _).bind fun _ => hjournal _

/-- **What is shown of a record** is written in the context that its entry keeps. -/
theorem shown_deliver {r : Record} (htakes : s.journal.takes r.level = true) (hattached : s.journal.attached ≠ []) :
    (s.deliver r).shown = s.shown ++ Journal.shownOn ⟨r, s.journal.context⟩ s.journal.attached := by
  have hsome : ¬ (s.journal.take r).attached.isEmpty = true := fun hnil => hattached (List.isEmpty_iff.mp hnil)
  unfold deliver
  rw [if_pos htakes]
  dsimp only
  rw [if_neg hsome]
  exact shown_foldl_write r s.journal.attached { s with journal := s.journal.take r }

end Session

/-! ### Records in one context

Within a run there are stretches in which nothing is pushed or popped.  `Continues` is such a
stretch: the records that were taken, all with one context, and what was shown of just those.  A
run is two of these, one up to its program and one behind it.
-/

/-- A session that has gone on from another: its journal has taken some records in the given context, and shown
those. -/
structure Session.Continues (c : Context) (before s : Session) : Prop where
  context : s.journal.context = c
  outlets : s.journal.attached.map Outlet.unplaced = before.journal.attached.map Outlet.unplaced
  entries : ∃ new, s.journal.entries = new ++ before.journal.entries ∧ (∀ e ∈ new, e.context = c)
    ∧ s.shown = before.shown ++ Journal.transcript before.journal.attached new

namespace Session

variable {c : Context} {before s s' : Session}

theorem Continues.start (hcontext : s.journal.context = c) (houtlets : s.journal.attached = before.journal.attached)
    (hentries : s.journal.entries = before.journal.entries) (hshown : s.shown = before.shown) :
    Continues c before s where
  context := hcontext
  outlets := congrArg (List.map Outlet.unplaced) houtlets
  entries := by
    refine ⟨[], hentries, fun e he => (nomatch he), ?_⟩
    rw [hshown]
    exact String.append_empty.symm

theorem Continues.moved (h : Continues c before s) (hmoved : s.journal.Moved s'.journal) (hshown : s'.shown = s.shown) :
    Continues c before s' where
  context := hmoved.context.trans h.context
  outlets := hmoved.attached.trans h.outlets
  entries := by
    rw [hmoved.entries, hshown]
    exact h.entries

theorem Continues.attached_ne_nil (h : Continues c before s) (hattached : before.journal.attached ≠ []) :
    s.journal.attached ≠ [] := fun hnone => hattached <| by
  have houtlets := h.outlets
  rw [hnone] at houtlets
  exact List.map_eq_nil_iff.mp houtlets.symm

/-- A delivery adds its record, in the context that there is. -/
theorem Continues.deliver (hattached : before.journal.attached ≠ []) (s : Session) (r : Record)
    (h : Continues c before s) : Continues c before (s.deliver r) := by
  have hmoved := moved_deliver r s
  unfold Journal.noted at hmoved
  by_cases htakes : s.journal.takes r.level = true
  · rw [if_pos htakes] at hmoved
    refine ⟨hmoved.context.trans h.context, hmoved.attached.trans h.outlets, ?_⟩
    obtain ⟨new, hnew, hcontexts, hshown⟩ := h.entries
    refine ⟨⟨r, s.journal.context⟩ :: new, ?_, ?_, ?_⟩
    · rw [hmoved.entries, List.cons_append, ← hnew]
      rfl
    · exact List.forall_mem_cons.mpr ⟨h.context, hcontexts⟩
    · rw [shown_deliver htakes (h.attached_ne_nil hattached), hshown, Journal.shownOn_of_unplaced h.outlets, String.append_assoc]
      rfl
  · rw [if_neg htakes] at hmoved
    refine h.moved hmoved ?_
    unfold Session.deliver
    rw [if_neg htakes]

end Session

namespace Command

open Session (Continues)

variable [Yaml.Reader] {c : Context} {before s opened : Session} {now : Instant} {args : List String} {a : Arguments} {place : Path}

namespace Work

omit [Yaml.Reader] in
theorem keeps_continues_onDisk {ε δ α : Type} (wrap : δ → ε) (work : EStateM δ Disk α) :
    Keeps (Continues c before) (Session.onDisk wrap work) := by
  intro s h
  exact h.moved (Session.moved_onDisk wrap work s) (Session.shown_onDisk wrap work s)

omit [Yaml.Reader] in
theorem keeps_continues_deliver (hattached : before.journal.attached ≠ []) (now : Instant) (listing : String)
    (output : Option String) : Keeps (Continues c before) (deliver now listing output) := by
  have hprint : Keeps (Continues c before) (Session.putPrinted (listing ++ "\n") : Work Unit) :=
    fun s h => h.moved (.refl s.journal) rfl
  unfold deliver
  split
  · exact hprint
  · exact hprint
  · exact (keeps_continues_onDisk _ _).bind fun _ => keeps_say (Continues.deliver hattached) now _

/-- What a run behind the setup of the journal has put into it. -/
inductive Recorded (now : Instant) (a : Arguments) (place : Path) (opened s : Session) : Prop where
  /-- There is no program. -/
  | unbuilt (hbuilt : ∀ p q, (built now a place).run opened ≠ .ok p q) (h : Continues opened.journal.context opened s)
  /-- There is a program, and its name is in the context from then on. -/
  | built {p : Program} {q : Session} (hbuilt : (built now a place).run opened = .ok p q)
      (hearly : Continues opened.journal.context opened q)
      (hlate : Continues (opened.journal.context.push [("program", .text p.title)]) q s)

/-- The part of a run behind its program. -/
def finishing (now : Instant) (a : Arguments) (p : Program) : Work Unit := do
  Session.onJournal (Journal.push [("program", .text p.title)])
  deliver now (← listing now p) a.output

theorem render_eq_finishing (now : Instant) (a : Arguments) (place : Path) :
    render now a place = (do finishing now a (← built now a place)) := by
  simp only [render_eq, listed_eq, finishing, bind_assoc]

theorem recorded_render (hattached : s.journal.attached ≠ []) (now : Instant) (a : Arguments) (place : Path) :
    Recorded now a place s (leaves ((render now a place).run s)) := by
  have hkeeps := keeps_built (Continues.deliver (c := s.journal.context) hattached) now a place
  have hstart : Continues s.journal.context s s := .start rfl rfl rfl rfl
  rw [render_eq_finishing, EStateM.run_bind]
  cases hbuilt : (built now a place).run s with
  | error e q =>
      refine .unbuilt (fun p q' hok => ?_) (hkeeps.error hstart hbuilt)
      rw [hbuilt] at hok
      cases hok
  | ok p q =>
      have hearly := hkeeps.ok hstart hbuilt
      have hq := hearly.attached_ne_nil hattached
      refine .built hbuilt hearly ?_
      have hpushed : Continues (s.journal.context.push [("program", .text p.title)]) q
          { q with journal := q.journal.push [("program", .text p.title)] } := by
        refine .start ?_ rfl rfl rfl
        rw [← hearly.context]
        rfl
      have hdeliver := Continues.deliver (c := s.journal.context.push [("program", .text p.title)]) hq
      have hfinishing : Keeps (Continues (s.journal.context.push [("program", .text p.title)]) q)
          (do deliver now (← listing now p) a.output : Work Unit) :=
        (keeps_listing hdeliver now p).bind fun l => keeps_continues_deliver hq now l a.output
      exact hfinishing _ hpushed

/-- What is reported of a failure is one record more. -/
theorem Recorded.deliver (hattached : opened.journal.attached ≠ [])
    (h : Recorded now a place opened s) (r : Record) : Recorded now a place opened (s.deliver r) := by
  cases h with
  | unbuilt hbuilt h => exact .unbuilt hbuilt (h.deliver hattached s r)
  | built hbuilt hearly hlate =>
      exact .built hbuilt hearly (hlate.deliver (hearly.attached_ne_nil hattached) s r)

end Work

/-! ### Runs -/

/-- A run opens its journal: it has a job, and the setup of the journal comes through. -/
structure Opens (args : List String) (before : Session) (a : Arguments) (place : Path) (opened : Session) : Prop where
  read : Request.read args = .ok (.run a)
  job : Path.ofValue? a.job.toValue = .ok place
  setup : (Session.setUp (a.setup place)).run before = .ok () opened

/-- What a run does to the journal. -/
inductive Ran (now : Instant) (args : List String) (before after : Session) : Prop where
  /-- The journal is not opened, and nothing is put into it. -/
  | silent (hclosed : ∀ a place opened, ¬ Opens args before a place opened)
      (hcontext : after.journal.context = before.journal.context)
      (hentries : after.journal.entries = before.journal.entries)
  /-- The journal is opened, and in the end the name of the program is popped. -/
  | told {a : Arguments} {place : Path} {opened s : Session} (hopens : Opens args before a place opened)
      (hrecorded : Work.Recorded now a place opened s) (hafter : after = ended s)

omit [DigitLimit] [Yaml.Reader] in
/-- A journal that cannot be opened keeps its context and its records. -/
theorem journal_of_setUp_error {what : Setup} {e : SetupError} (h : (Session.setUp what).run before = .error e s) :
    s.journal.context = before.journal.context ∧ s.journal.entries = before.journal.entries := by
  have hways := Session.setsUp what before
  rw [h] at hways
  generalize hleft : s = left at hways
  cases hways with
  | refused hlevel => exact hleft ▸ ⟨rfl, rfl⟩
  | stuck hlevel hopened => exact ⟨hopened.context, hopened.entries⟩

namespace Opens

section

omit [Yaml.Reader]

/-- A journal that is opened has the job in its context and no more records than before. -/
theorem journal (h : Opens args before a place opened) :
    opened.journal.context = before.journal.context.push [("job", .text place.name)]
      ∧ opened.journal.entries = before.journal.entries := by
  have hways := Session.setsUp (a.setup place) before
  rw [h.setup] at hways
  cases hways with
  | done hlevel hopened hkinds hjournal =>
      rw [hjournal]
      exact ⟨congrArg (Context.push · [("job", .text place.name)]) hopened.context, hopened.entries⟩

/-- A journal that is opened has an outlet to the console at least. -/
theorem attached_ne_nil (h : Opens args before a place opened) : opened.journal.attached ≠ [] := by
  have hways := Session.setsUp (a.setup place) before
  rw [h.setup] at hways
  cases hways with
  | @done _ prepared _ hlevel hopened hkinds hjournal =>
      rw [hjournal]
      intro hnone
      have hown : prepared.journal.own = [] := (List.append_eq_nil_iff.mp hnone).2
      rw [Session.ownKinds, hown] at hkinds
      cases hkinds

theorem shown (h : Opens args before a place opened) : opened.shown = before.shown :=
  (Session.keeps_shown_setUp before.shown (a.setup place)).ok rfl h.setup

theorem of_read {a' : Arguments} (h : Opens args before a' place opened) (hread : Request.read args = .ok (.run a)) :
    Opens args before a place opened := by
  have hsame := h.read.symm.trans hread
  injection hsame with hsame
  injection hsame with hsame
  exact hsame ▸ h

/-- A command line opens the journal in one way at most. -/
theorem unique {a' : Arguments} {place' : Path} {opened' : Session} (h : Opens args before a place opened)
    (h' : Opens args before a' place' opened') : a' = a ∧ place' = place ∧ opened' = opened := by
  have hread := h'.read.symm.trans h.read
  injection hread with hread
  injection hread with ha
  subst ha
  have hplace := Except.ok.inj (h'.job.symm.trans h.job)
  subst hplace
  have hsetup := h'.setup.symm.trans h.setup
  injection hsetup with _ hopened
  exact ⟨rfl, rfl, hopened⟩

end

/-- What the run behind the opening has put into the journal. -/
theorem recorded (h : Opens args before a place opened) (now : Instant)
    (hleft : leaves ((Work.render now a place).run opened) = s) : Work.Recorded now a place opened s :=
  hleft ▸ Work.recorded_render h.attached_ne_nil now a place

end Opens

/-- Each way of a run, as far as the journal goes. -/
theorem ran_of_comes {ending : Ending} {after : Session} (hread : Request.read args = .ok (.run a))
    (h : Comes now a before ending after) : Ran now args before after := by
  cases h with
  | noPath hplace =>
      refine .silent (fun a' place opened h => ?_) rfl rfl
      have hjob := (h.of_read hread).job
      rw [hplace] at hjob
      cases hjob
  | noJournal hplace hsetup =>
      obtain ⟨hcontext, hentries⟩ := journal_of_setUp_error hsetup
      refine .silent (fun a' place opened h => ?_) hcontext hentries
      have hopens := h.of_read hread
      obtain rfl := Except.ok.inj (hplace.symm.trans hopens.job)
      exact nomatch hsetup.symm.trans hopens.setup
  | @finished place opened s hplace hsetup hrender =>
      have hopens : Opens args before a place opened := ⟨hread, hplace, hsetup⟩
      exact .told hopens (hopens.recorded now (congrArg leaves hrender)) rfl
  | @reported place e opened s hplace hsetup hrender he =>
      have hopens : Opens args before a place opened := ⟨hread, hplace, hsetup⟩
      have hrecorded : Work.Recorded now a place opened s := hopens.recorded now (congrArg leaves hrender)
      exact .told hopens (hrecorded.deliver hopens.attached_ne_nil _) rfl
  | @failed place e opened s hplace hsetup hrender he =>
      have hopens : Opens args before a place opened := ⟨hread, hplace, hsetup⟩
      exact .told hopens (hopens.recorded now (congrArg leaves hrender)) rfl

/-- The rules of a run, as far as the journal goes. -/
theorem ran (now : Instant) (args : List String) (before : Session) : Ran now args before (run now args before).2 := by
  unfold run
  cases hread : Request.read args with
  | error e => exact .silent (fun a place opened h => (nomatch hread.symm.trans h.read)) rfl rfl
  | ok request =>
      cases request with
      | help => exact .silent (fun a place opened h => (nomatch hread.symm.trans h.read)) rfl rfl
      | run a => exact ran_of_comes hread (comes_runArguments now a before)

/-! ### One run after another

What a run may rely on is only that no program is named in the context when it begins.  Each run
leaves it so, whatever comes of it, and somebody who attaches an outlet in between does not
touch the context; so it holds after any number of runs.
-/

/-- The context between two runs: it is empty, or it names the last job. -/
def Between (c : Context) : Prop := c = [] ∨ ∃ job, c = [("job", job)]

section

omit [DigitLimit] [Yaml.Reader]

/-- The next job takes the place of the last one. -/
theorem Between.push_job (h : Between c) (job : Value) : c.push [("job", job)] = [("job", job)] := by
  rcases h with rfl | ⟨last, rfl⟩
  · rfl
  · rfl

theorem context_ended {job : Value} (h : s.journal.context = [("job", job)]) :
    (ended s).journal.context = [("job", job)] := by
  show s.journal.context.pop ["program"] = _
  rw [h]
  rfl

theorem context_ended_of_program {job program : Value}
    (h : s.journal.context = [("job", job), ("program", program)]) : (ended s).journal.context = [("job", job)] := by
  show s.journal.context.pop ["program"] = _
  rw [h]
  rfl

/-- What the records of a run that opens the journal go along with. -/
structure Tells (now : Instant) (a : Arguments) (place : Path) (before opened after : Session) : Prop where
  context : after.journal.context = [("job", .text place.name)]
  records : ∃ late early, after.journal.entries = late ++ early ++ before.journal.entries
    ∧ after.shown = before.shown ++ Journal.transcript opened.journal.attached (late ++ early)
    ∧ (∀ e ∈ early, e.context = [("job", .text place.name)])
    ∧ (∀ p q, (Work.built now a place).run opened = .ok p q → q.journal.entries = early ++ before.journal.entries
      ∧ ∀ e ∈ late, e.context = [("job", .text place.name), ("program", .text p.title)])
    ∧ ((∀ p q, (Work.built now a place).run opened ≠ .ok p q) → late = [])

end

theorem tells_of_recorded (hbetween : Between before.journal.context) (hopens : Opens args before a place opened)
    (h : Work.Recorded now a place opened s) : Tells now a place before opened (ended s) := by
  obtain ⟨hcontext, hentries⟩ := hopens.journal
  rw [hbetween.push_job] at hcontext
  cases h with
  | unbuilt hbuilt h =>
      obtain ⟨new, hnew, hcontexts, hshown⟩ := h.entries
      rw [hcontext] at hcontexts
      rw [hentries] at hnew
      rw [hopens.shown] at hshown
      exact ⟨context_ended (h.context.trans hcontext), [], new, hnew, hshown, hcontexts,
        fun p q hok => absurd hok (hbuilt p q), fun _ => rfl⟩
  | @built p q hbuilt hearly hlate =>
      obtain ⟨early, hearlyEntries, hearlyContexts, hearlyShown⟩ := hearly.entries
      obtain ⟨late, hlateEntries, hlateContexts, hlateShown⟩ := hlate.entries
      have hprogram : opened.journal.context.push [("program", .text p.title)]
          = [("job", .text place.name), ("program", .text p.title)] := by
        rw [hcontext]
        rfl
      rw [hentries] at hearlyEntries
      rw [hcontext] at hearlyContexts
      rw [hprogram] at hlateContexts
      refine ⟨context_ended_of_program (hlate.context.trans hprogram), late, early, ?_, ?_, hearlyContexts,
        fun p' q' hok => ?_, fun hnone => absurd hbuilt (hnone p q)⟩
      · rw [List.append_assoc, ← hearlyEntries]
        exact hlateEntries
      · rw [Journal.transcript_append, ← String.append_assoc, ← hopens.shown, ← hearlyShown,
          ← Journal.transcript_of_unplaced hearly.outlets]
        exact hlateShown
      · have hsame := hok.symm.trans hbuilt
        injection hsame with hp hq
        rw [hp, hq]
        exact ⟨hearlyEntries, hlateContexts⟩

/-- What a run does to the context between runs. -/
theorem between_run (h : Between before.journal.context) (now : Instant) (args : List String) :
    Between (run now args before).2.journal.context := by
  have hran := ran now args before
  generalize (run now args before).2 = after at hran ⊢
  cases hran with
  | silent hclosed hcontext hentries =>
      rw [hcontext]
      exact h
  | told hopens hrecorded hafter =>
      rw [hafter]
      exact Or.inr ⟨_, (tells_of_recorded h hopens hrecorded).context⟩

/-- What happens in a process that runs the command again and again. -/
inductive Turn where
  | run (now : Instant) (args : List String)
  /-- Somebody else attaches an outlet to the journal. -/
  | attachOther
  /-- The files are changed. -/
  | change (op : FileOp)

/-- The session after a turn, however a run ends. -/
def Turn.after (s : Session) : Turn → Session
  | run now args => (Command.run now args s).2
  | attachOther => { s with journal := s.journal.attachOther }
  | change op => leaves ((Session.onDisk SetupError.file (FileWork.perform op)).run s)

/-- The session after a row of turns. -/
def afterTurns (s : Session) (turns : List Turn) : Session := turns.foldl Turn.after s

theorem between_after (h : Between s.journal.context) (turn : Turn) : Between (turn.after s).journal.context := by
  cases turn with
  | run now args => exact between_run h now args
  | attachOther => exact h
  | change op =>
      have hcontext := (Session.moved_onDisk SetupError.file (FileWork.perform op) s).context
      exact hcontext ▸ h

theorem between_afterTurns (h : Between s.journal.context) (turns : List Turn) :
    Between (afterTurns s turns).journal.context := by
  induction turns generalizing s with
  | nil => exact h
  | cons turn rest ih => exact ih (between_after h turn)

/-- **The context does not leak from run to run.**  In a process that has begun with an empty context and has run the
command any number of times, a run that opens the journal puts two kinds of records into it.  Those up to its program
go along with the name of its own job and nothing else, and those from its program on with the names of both; what it
shows is made of these alone.  In the end the name of the program is not in the context any more.  A run that does
not open the journal puts nothing into it and leaves the context. -/
theorem contexts_of_run {s : Session} (hs : s.journal.context = []) (turns : List Turn) (now : Instant)
    (args : List String) :
    let before := afterTurns s turns
    let after := (run now args before).2
    (∀ a place opened, Opens args before a place opened → Tells now a place before opened after)
    ∧ ((∀ a place opened, ¬ Opens args before a place opened) → after.journal.entries = before.journal.entries
      ∧ after.journal.context = before.journal.context)
    ∧ after.journal.context.lookup "program" = none := by
  intro before after
  have hbetween : Between before.journal.context := between_afterTurns (Or.inl hs) turns
  have hran : Ran now args before after := ran now args before
  have hnone : after.journal.context.lookup "program" = none := by
    have hafter : Between after.journal.context := between_run hbetween now args
    rcases hafter with hnil | ⟨job, hjob⟩
    · rw [hnil]
      rfl
    · rw [hjob]
      rfl
  clear_value before after
  cases hran with
  | silent hclosed hcontext hentries =>
      exact ⟨fun a place opened hopens => absurd hopens (hclosed a place opened), fun _ => ⟨hentries, hcontext⟩, hnone⟩
  | @told a place opened left hopens hrecorded hafter =>
      refine ⟨fun a' place' opened' hopens' => ?_, fun hclosed => absurd hopens (hclosed a place opened), hnone⟩
      obtain ⟨rfl, rfl, rfl⟩ := hopens.unique hopens'
      rw [hafter]
      exact tells_of_recorded hbetween hopens hrecorded

end Command

end

/-- After a run that has delivered its program, one whose job is no map: it reports this in one record, which goes
along with its own job and no program. -/
theorem Command.contexts_of_run_of_refused :
    let s : Session := .initial ⟨[(["a"], .file "program: {name: 7}"), (["b"], .file "1")]⟩ false
    let args := ["-j", "b"]
    let before := afterTurns s [.run ⟨0⟩ ["-j", "a"]]
    let after := (run ⟨0⟩ args before).2
    (run ⟨0⟩ ["-j", "a"] s).1 = .finished 0 ∧ after.journal.context = [("job", .text "b")]
    ∧ ∃ e, after.journal.entries = e :: before.journal.entries ∧ e.context = [("job", .text "b")] := by
  intro s args before after
  let a : Arguments := ⟨.just "b", none, none, .just 0, false, .just "WARNING", none, false⟩
  let place : Path := ⟨["b"]⟩
  let opened := leaves ((Session.setUp (a.setup place)).run before)
  have hread : Request.read args = .ok (.run a) := by decide +kernel
  have hfinished : (run ⟨0⟩ ["-j", "a"] s).1 = .finished 0 := Ending.eq_finished (by decide +kernel)
  have hsetup : fails ((Session.setUp (a.setup place)).run before) = false := by decide +kernel
  have hbuilt : fails ((Work.built ⟨0⟩ a place).run opened) = true := by decide +kernel
  have hnone : before.journal.entries.length = 0 := by decide +kernel
  have hone : after.journal.entries.length = 1 := by decide +kernel
  obtain ⟨_, hrun⟩ := eq_ok_of_not_fails hsetup
  have hopens : Opens args before a place opened := ⟨hread, by decide +kernel, hrun⟩
  have htells : Tells ⟨0⟩ a place before opened after :=
    (contexts_of_run (s := s) rfl [.run ⟨0⟩ ["-j", "a"]] ⟨0⟩ args).1 a place opened hopens
  clear_value before after opened
  obtain ⟨late, early, hentries, -, hearly, -, hlate⟩ := htells.records
  obtain rfl : late = [] := hlate fun p q hok => by
    rw [hok] at hbuilt
    cases hbuilt
  have hlength : early.length = 1 := by
    rw [hentries, List.length_append, hnone] at hone
    exact hone
  obtain ⟨e, rfl⟩ := List.length_eq_one_iff.mp hlength
  exact ⟨hfinished, htells.context, e, hentries, hearly e (List.mem_singleton_self e)⟩

end PartProgram
