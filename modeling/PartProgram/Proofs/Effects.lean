/-
What a run does to the world.

A run says things in the journal all along, but it delivers once, at its end.  Everything
before that makes a listing or fails, and a listing is a value: it is the same whether it is
going to be printed or written to a file.  So a run that fails has printed nothing and left
the file it was to write as it was, and a run that comes to its end has delivered the listing
with a line end behind it, wherever it was to go.

The file of the journal has to be another than the output and the temporary file next to it,
since whatever is said in it is written at once.  It may stand below the output, though, or the
path of the output may lead back over a directory that is missing.  Then there is nothing at the
place of the output before, and a directory is made there.
-/
import Mathlib.Data.String.Basic
import PartProgram.Proofs.Answer
import PartProgram.Proofs.Sessions
import PartProgram.Yaml.Document

namespace PartProgram

/-- What comes of an action, without the state that it leaves. -/
def answers {ε σ α : Type} : EStateM.Result ε σ α → Except ε α
  | .ok a _ => .ok a
  | .error e _ => .error e

open PartProgram.Numbering

/-! ### The end of a listing -/

theorem intercalate_concat (sep last : String) (lines : List String) :
    ∃ front, sep.intercalate (lines ++ [last]) = front ++ last := by
  induction lines with
  | nil => exact ⟨"", by simp⟩
  | cons line rest ih =>
      obtain ⟨front, hfront⟩ := ih
      cases rest with
      | nil => exact ⟨line ++ sep, by simp [String.intercalate_cons_cons]⟩
      | cons next more =>
          refine ⟨line ++ sep ++ front, ?_⟩
          rw [List.cons_append, List.cons_append, String.intercalate_cons_cons, ← List.cons_append, hfront]
          exact String.append_assoc.symm

/-- Where neither a text nor a directory is lost, there is what was there, or a directory where nothing was. -/
theorem FileTree.entry?_of_kept {t t' : FileTree} {place : Place} (htext : t'.text? place = t.text? place)
    (hdir : t.entry? place = some .directory → t'.entry? place = some .directory) :
    t'.entry? place = t.entry? place ∨ t.entry? place = none ∧ t'.entry? place = some .directory := by
  cases hbefore : t.entry? place with
  | none =>
      cases hafter : t'.entry? place with
      | none => exact Or.inl rfl
      | some entry =>
          cases entry with
          | directory => exact Or.inr ⟨rfl, rfl⟩
          | file s =>
              rw [text?, text?, hbefore, hafter] at htext
              cases htext
  | some entry =>
      cases entry with
      | directory => exact Or.inl (hdir hbefore)
      | file s =>
          have hsame : t'.text? place = some s := by
            rw [htext, text?, hbefore]
          exact Or.inl (entry_of_text hsame)

section

variable [DigitLimit]

/-- A listing ends in the marker, so it is written with a line end behind it. -/
theorem Generator.closed_of_answer {g : Generator} {ops : List Operation} {listing : String}
    (h : (g.generate ops).1 = .ok listing) : AtomicWrite.closed listing = listing ++ "\n" := by
  obtain ⟨-, p, q, -, -, hlines, hlisting⟩ := written_of_answer h
  rw [Config.writtenLines, entries_append, Call.entries_marker] at hlines
  rw [hlines] at hlisting
  obtain ⟨front, hfront⟩ := intercalate_concat "\n" openMarker
    (entries (if g.config.lineNumbering then 1 else 0) (g.config.headLines g.nextName ++ g.config.bodyLines ops))
  rw [hlisting, hfront]
  have hopen : (front ++ openMarker).endsWith "\n" = false := by
    rw [← String.endsWith_toSlice, String.Slice.endsWith_string_eq_false_iff, String.copy_toSlice, String.toList_append]
    rintro ⟨before, hbefore⟩
    have hlast := congrArg List.getLast? hbefore
    simp [openMarker] at hlast
  rw [AtomicWrite.closed, hopen]
  rfl

namespace Command

variable [Yaml.Reader]

/-- The configuration that a job falls back on; none where it has settings of its own.  The file is read when
it is said that it is read. -/
def Arguments.fallback (now : Instant) (a : Arguments) (job : Job) (s : Session) : Except Failure (Option Config) :=
  if job.settings.isSome then .ok none
  else do
    let place ← (a.config.mapM fun file => Path.ofValue? file.toValue).mapError .noPath
    let announced := s.said now (Config.loadingNotes s.disk.tree place)
    some <$> (Config.readFile announced.disk.tree place).1.mapError .configFile

/-- The listing that a session's files make of the job at a place. -/
def Arguments.listingOf (now : Instant) (a : Arguments) (place : Path) (s : Session) : Except Failure String := do
  let job ← (Job.load s.disk.tree place).mapError .job
  let fallback ← a.fallback now job s
  let config ← (job.config fallback a.changes).1.mapError .config
  let ops ← job.operations.mapError .directives
  let names ← a.names
  ((Generator.mk config (some names)).generate ops).1.mapError .program

/-- The listing that a session's files make of a job that was loaded. -/
def Arguments.listingOfJob (now : Instant) (a : Arguments) (job : Job) (s : Session) : Except Failure String := do
  let fallback ← a.fallback now job s
  let config ← (job.config fallback a.changes).1.mapError .config
  let ops ← job.operations.mapError .directives
  let names ← a.names
  ((Generator.mk config (some names)).generate ops).1.mapError .program

theorem Arguments.listingOf_eq (now : Instant) (a : Arguments) (place : Path) (s : Session) :
    a.listingOf now place s = (Job.load s.disk.tree place).mapError .job >>= fun job => a.listingOfJob now job s := rfl

/-- The listing that a run makes, once its journal is set up. -/
def Arguments.listing (now : Instant) (a : Arguments) (s : Session) : Except Failure String := do
  let place ← (Path.ofValue? a.job.toValue).mapError .noPath
  match (Session.setUp (a.setup place)).run s with
  | .error e _ => .error (.setup e)
  | .ok () s => a.listingOf now place s

/-- The file that a run writes its listing to; none where the output is not given, or left empty. -/
def Arguments.outputFile (a : Arguments) : Option Path :=
  match a.output with
  | none | some "" => none
  | some file => some (.ofText file)

/-- The place of the output file. -/
def Arguments.target (a : Arguments) : List Place := (a.outputFile.map Path.spelled).toList

/-- The places at which a run may do something to write its listing: the output file and the temporary one
next to it. -/
def Arguments.outputPlaces (a : Arguments) : List Place :=
  match a.outputFile with
  | none => []
  | some path => path.spelled :: AtomicWrite.siblings path AtomicWrite.standardSuffix

/-- The places at which a run may make a directory: above the output file, and above the file of its journal. -/
def Arguments.MakesAt (a : Arguments) (place : Place) : Prop :=
  ∃ file : Path, (a.outputFile = some file ∨ ∃ name, a.logFile = some name ∧ name ≠ "" ∧ file = .ofText name)
    ∧ ∃ n, place = (Path.parent^[n] file.parent).spelled

/-- At the place there is what was there, or a directory that the run has made where there was nothing. -/
def Arguments.KeptAt (a : Arguments) (t t' : FileTree) (place : Place) : Prop :=
  t'.entry? place = t.entry? place ∨ t.entry? place = none ∧ t'.entry? place = some .directory ∧ a.MakesAt place

/-- A run delivers a text: it prints it, or it leaves the output file with it and prints nothing. -/
def Arguments.Delivers (a : Arguments) (before after : Session) (text : String) : Prop :=
  match a.outputFile with
  | none => after.printed = before.printed ++ text
  | some path => after.printed = before.printed ∧ after.disk.tree.content path = .ok text

/-- The files of the journal are not where the listing is written: neither the file that is going to be opened
nor one that was attached by somebody else. -/
structure Arguments.WritesApart (a : Arguments) (s : Session) : Prop where
  log : ∀ file, a.logFile = some file → file ≠ "" → (Path.ofText file).spelled ∉ a.outputPlaces
  attached : s.journal.release.Avoids a.outputPlaces

section

omit [DigitLimit] [Yaml.Reader]

theorem Arguments.target_of_some {a : Arguments} {path : Path} (h : a.outputFile = some path) :
    a.target = [path.spelled] := by rw [target, h]; rfl

theorem Arguments.outputPlaces_of_some {a : Arguments} {path : Path} (h : a.outputFile = some path) :
    a.outputPlaces = path.spelled :: AtomicWrite.siblings path AtomicWrite.standardSuffix := by rw [outputPlaces, h]

theorem Arguments.target_subset (a : Arguments) : a.target ⊆ a.outputPlaces := by
  unfold target outputPlaces
  cases a.outputFile with
  | none => exact List.Subset.refl _
  | some path => simp

end

namespace Work

variable {places : List Place} {before s : Session} {now : Instant} {a : Arguments}

/-- What a run keeps while it makes its listing: something that is left alone by records and by what is pushed on
the context. -/
structure Lasts (I : Session → Prop) : Prop where
  deliver : ∀ s r, I s → I (s.deliver r)
  push : ∀ s fields, I s → I { s with journal := s.journal.push fields }

omit [Yaml.Reader] in
theorem lasts_spares : Lasts (Session.Spares places before) where
  deliver _ r h := Session.spares_deliver h r
  push _ _ h := ⟨⟨h.printed, h.text, h.directory⟩, h.avoids⟩

omit [Yaml.Reader] in
theorem lasts_makes (above : Place → Prop) : Lasts (Session.Makes above before) where
  deliver _ r h := Session.makes_deliver h r
  push _ _ h := h

/-- The part of a run that makes the listing. -/
def listed (now : Instant) (a : Arguments) (place : Path) : Work String := do
  let job ← need .job (Job.load (← get).disk.tree place)
  let config ← configuration now a job
  let ops ← need .directives job.operations
  let names ← need id a.names
  let p ← building now ⟨config, some names⟩ ops
  Session.onJournal (Journal.push [("program", .text p.title)])
  listing now p

/-- A run makes its listing and delivers it. -/
theorem render_eq (now : Instant) (a : Arguments) (place : Path) :
    render now a place = (do deliver now (← listed now a place) a.output) := by
  simp only [render, listed, bind_assoc]

/-! ### Making the listing

A run speaks while it makes the listing, and speaking writes to the files of the journal.  What
it reads are other files, so what comes of it can be said of the files as they are at the start,
with no session between.  One stage after another is compared with a computation of this kind:
the state drops out of `answers`, and an invariant that records keep, `Keeps`, takes care of the
state.
-/

variable {I : Session → Prop}

omit [DigitLimit] [Yaml.Reader] in
theorem keeps_need {α ε : Type} (wrap : ε → Failure) (x : Except ε α) : Keeps I (need wrap x) := by
  cases x with
  | ok a => exact .pure a
  | error e => exact .throw _

omit [Yaml.Reader] in
theorem keeps_say (hI : ∀ s r, I s → I (s.deliver r)) (now : Instant) (notes : List Note) : Keeps I (say now notes) :=
  fun _ h => List.foldlRecOn notes _ h fun s hs n _ => hI s (.ofNote now n) hs

/-- Takes the configuration that a job falls back on. -/
def falling (now : Instant) (a : Arguments) (job : Job) : Work (Option Config) :=
  if job.settings.isSome then pure none
  else do
    let place ← need .noPath (a.config.mapM fun file => Path.ofValue? file.toValue)
    say now (Config.loadingNotes (← get).disk.tree place)
    let tree := (← get).disk.tree
    say now (Config.readFile tree place).2
    some <$> need .configFile (Config.readFile tree place).1

theorem configuration_eq (now : Instant) (a : Arguments) (job : Job) :
    configuration now a job = (do
      let fallback ← falling now a job
      say now (job.config fallback a.changes).2
      need .config (job.config fallback a.changes).1) := by
  unfold configuration falling
  cases job.settings.isSome with
  | true => rfl
  | false => simp only [Bool.false_eq_true, if_false, bind_assoc, map_eq_pure_bind, pure_bind]

theorem keeps_falling (hI : ∀ s r, I s → I (s.deliver r)) (now : Instant) (a : Arguments) (job : Job) :
    Keeps I (falling now a job) := by
  unfold falling
  split
  · exact .pure none
  · refine (keeps_need _ _).bind fun place => Keeps.get.bind fun _ => (keeps_say hI _ _).bind fun _ => ?_
    refine Keeps.get.bind fun _ => (keeps_say hI _ _).bind fun _ => ?_
    rw [map_eq_pure_bind]
    exact (keeps_need _ _).bind fun _ => .pure _

theorem keeps_configuration (hI : ∀ s r, I s → I (s.deliver r)) (now : Instant) (a : Arguments) (job : Job) :
    Keeps I (configuration now a job) := by
  rw [configuration_eq]
  exact (keeps_falling hI now a job).bind fun _ => (keeps_say hI _ _).bind fun _ => keeps_need _ _

omit [Yaml.Reader] in
theorem keeps_building (hI : ∀ s r, I s → I (s.deliver r)) (now : Instant) (g : Generator) (ops : List Operation) :
    Keeps I (building now g ops) := by
  unfold building
  split
  · exact (keeps_say hI _ _).bind fun _ => .pure _
  · exact (keeps_say hI _ _).bind fun _ => .throw _
  · exact .throw _

omit [Yaml.Reader] in
theorem keeps_listing (hI : ∀ s r, I s → I (s.deliver r)) (now : Instant) (p : Program) : Keeps I (listing now p) := by
  unfold listing
  exact (keeps_say hI _ _).bind fun _ => keeps_need _ _

/-- The part of a run that makes the program. -/
def built (now : Instant) (a : Arguments) (place : Path) : Work Program := do
  let job ← need .job (Job.load (← get).disk.tree place)
  let config ← configuration now a job
  let ops ← need .directives job.operations
  let names ← need id a.names
  building now ⟨config, some names⟩ ops

theorem listed_eq (now : Instant) (a : Arguments) (place : Path) :
    listed now a place = (do
      let p ← built now a place
      Session.onJournal (Journal.push [("program", .text p.title)])
      listing now p) := by
  simp only [listed, built, bind_assoc]

theorem keeps_built (hI : ∀ s r, I s → I (s.deliver r)) (now : Instant) (a : Arguments) (place : Path) :
    Keeps I (built now a place) := by
  refine Keeps.get.bind fun _ => (keeps_need _ _).bind fun job => ?_
  refine (keeps_configuration hI now a job).bind fun config => (keeps_need _ _).bind fun ops => ?_
  exact (keeps_need _ _).bind fun names => keeps_building hI now _ ops

theorem keeps_listed (hI : Lasts I) (now : Instant) (a : Arguments) (place : Path) :
    Keeps I (listed now a place) := by
  rw [listed_eq]
  refine (keeps_built hI.deliver now a place).bind fun p => ?_
  have hpush : Keeps I (Session.onJournal (Journal.push [("program", .text p.title)]) : Work Unit) :=
    fun s h => hI.push s _ h
  exact hpush.bind fun _ => keeps_listing hI.deliver now p

theorem answers_falling (now : Instant) (a : Arguments) (job : Job) (s : Session) :
    answers ((falling now a job).run s) = a.fallback now job s := by
  unfold falling Arguments.fallback
  cases job.settings.isSome with
  | true => rfl
  | false =>
      cases a.config.mapM fun file => Path.ofValue? file.toValue with
      | error e => rfl
      | ok place =>
          show answers ((some <$> need .configFile (Config.readFile
            (s.said now (Config.loadingNotes s.disk.tree place)).disk.tree place).1 : Work _).run _) =
            some <$> (Config.readFile
              (s.said now (Config.loadingNotes s.disk.tree place)).disk.tree place).1.mapError .configFile
          cases (Config.readFile (s.said now (Config.loadingNotes s.disk.tree place)).disk.tree place).1 with
          | error e => rfl
          | ok c => rfl

theorem answers_configuration (now : Instant) (a : Arguments) (job : Job) (s : Session) :
    answers ((configuration now a job).run s) = (do
      let fallback ← a.fallback now job s
      (job.config fallback a.changes).1.mapError .config) := by
  rw [configuration_eq, EStateM.run_bind, ← answers_falling]
  cases (falling now a job).run s with
  | error e q => rfl
  | ok fallback q =>
      show answers ((need .config (job.config fallback a.changes).1).run _) = (job.config fallback a.changes).1.mapError .config
      cases (job.config fallback a.changes).1 with
      | error e => rfl
      | ok config => rfl

omit [Yaml.Reader] in
/-- The listing of a program that is built is what the generator answers. -/
theorem answers_built (now : Instant) (g : Generator) (ops : List Operation) (s : Session) :
    answers ((do
      let p ← building now g ops
      Session.onJournal (Journal.push [("program", .text p.title)])
      listing now p : Work String).run s) = (g.generate ops).1.mapError .program := by
  unfold building Generator.generate
  rcases g.build ops with ⟨outcome, after⟩
  cases outcome with
  | unopened e => rfl
  | stopped e p => rfl
  | written p =>
      show answers ((listing now p).run _) = _
      unfold listing
      dsimp only
      cases Writing.eval.run p with
      | error e q => rfl
      | ok listing q => rfl

theorem answers_listed (now : Instant) (a : Arguments) (place : Path) (s : Session) :
    answers ((listed now a place).run s) = a.listingOf now place s := by
  rw [Arguments.listingOf_eq]
  unfold listed
  rw [EStateM.run_bind, EStateM.run_get]
  dsimp only
  cases Job.load s.disk.tree place with
  | error e => rfl
  | ok job =>
      show answers ((do
        let config ← configuration now a job
        let ops ← need .directives job.operations
        let names ← need id a.names
        let p ← building now ⟨config, some names⟩ ops
        Session.onJournal (Journal.push [("program", .text p.title)])
        listing now p : Work String).run s) = a.listingOfJob now job s
      unfold Arguments.listingOfJob
      rw [EStateM.run_bind, ← bind_assoc, ← answers_configuration]
      cases (configuration now a job).run s with
      | error e q => rfl
      | ok config q =>
          cases job.operations with
          | error e => rfl
          | ok ops =>
              cases a.names with
              | error e => rfl
              | ok names => exact answers_built now ⟨config, some names⟩ ops q

/-! ### Delivering it

Where there is an output file the listing is written as a whole, and where there is none it is
printed.  The records that are said in between go to the files of the journal, which are not the
output, so a delivery has done nothing at the output until the file is moved there.
-/

omit [Yaml.Reader] in
theorem deliver_of_none (h : a.outputFile = none) (listing : String) :
    deliver now listing a.output = Session.putPrinted (listing ++ "\n") := by
  unfold Arguments.outputFile at h
  cases houtput : a.output with
  | none => rfl
  | some file =>
      by_cases hempty : file = ""
      · subst hempty
        rfl
      · simp [houtput] at h

omit [Yaml.Reader] in
theorem deliver_of_some (now : Instant) {path : Path} (h : a.outputFile = some path) (listing : String) :
    ∃ file, deliver now listing a.output = (do
      Session.onDisk .output (AtomicWrite.writeText path listing)
      say now [written listing file]) := by
  unfold Arguments.outputFile at h
  cases houtput : a.output with
  | none => simp [houtput] at h
  | some file =>
      by_cases hempty : file = ""
      · simp [houtput, hempty] at h
      · obtain rfl : Path.ofText file = path := by simpa [houtput, hempty] using h
        exact ⟨file, by simp [deliver]⟩

omit [DigitLimit] [Yaml.Reader] in
/-- Writing the listing is done at the places of the output alone, and so the journal keeps off them. -/
theorem avoids_of_write {s : Session} {d : Disk}
    (h : s.journal.Avoids a.outputPlaces) (hd : s.disk.Reaches (fun op => op.places ⊆ a.outputPlaces) d) :
    (s.withDisk d).journal.Avoids a.outputPlaces :=
  Session.avoids_withDisk (fun _ _ hkind => hkind List.mem_cons_self) hd h

omit [DigitLimit] [Yaml.Reader] in
theorem reaches_of_writeText {path : Path} (ha : a.outputFile = some path) (listing : String) (d : Disk) :
    d.Reaches (fun op => op.places ⊆ a.outputPlaces) (leaves ((AtomicWrite.writeText path listing).run d)) := by
  rw [Arguments.outputPlaces_of_some ha]
  exact AtomicWrite.keeps_write FileWork.faithful_perform path _ _ d .start

section

omit [Yaml.Reader]

/-- A delivery that fails has left everything as it was. -/
theorem spares_of_deliver_error {listing : String} {e : Failure} {s s' : Session}
    (h : Session.Spares a.outputPlaces before s) (hrun : (deliver now listing a.output).run s = .error e s') :
    Session.Spares a.target before s' := by
  cases ha : a.outputFile with
  | none =>
      rw [deliver_of_none ha] at hrun
      cases hrun
  | some path =>
      obtain ⟨file, hdeliver⟩ := deliver_of_some now ha listing
      rw [hdeliver, EStateM.run_bind, Session.run_onDisk] at hrun
      cases hwrite : (AtomicWrite.writeText path listing).run s.disk with
      | ok _ d =>
          rw [hwrite] at hrun
          cases hrun
      | error e' d =>
          rw [hwrite] at hrun
          cases hrun
          have hreaches := reaches_of_writeText ha listing s.disk
          rw [hwrite] at hreaches
          refine ⟨⟨h.printed, fun place hplace => ?_, fun place hdir => hreaches.directory (h.directory place hdir)⟩, ?_⟩
          · have hsame := AtomicWrite.text_of_write_error FileWork.faithful_perform (by decide) hwrite
            have htarget := h.text place (a.target_subset hplace)
            rw [Arguments.target_of_some ha, List.mem_singleton] at hplace
            rw [hplace] at htarget ⊢
            exact hsame.trans htarget
          · exact (avoids_of_write h.avoids hreaches).of_subset a.target_subset

/-- It has made directories above the output alone. -/
theorem makes_of_deliver_error {listing : String} {e : Failure} {s s' : Session}
    (h : Session.Makes a.MakesAt before s) (hrun : (deliver now listing a.output).run s = .error e s') :
    Session.Makes a.MakesAt before s' := by
  cases ha : a.outputFile with
  | none =>
      rw [deliver_of_none ha] at hrun
      cases hrun
  | some path =>
      obtain ⟨file, hdeliver⟩ := deliver_of_some now ha listing
      rw [hdeliver, EStateM.run_bind, Session.run_onDisk] at hrun
      cases hwrite : (AtomicWrite.writeText path listing).run s.disk with
      | ok _ d =>
          rw [hwrite] at hrun
          cases hrun
      | error e' d =>
          rw [hwrite] at hrun
          cases hrun
          refine h.trans ((AtomicWrite.reaches_of_write_error FileWork.faithful_perform hwrite).mono ?_)
          intro op hop p hp
          obtain ⟨n, rfl⟩ := hop.2 p hp
          exact ⟨path, Or.inl ha, n, rfl⟩

/-- **A delivery that comes through.** -/
theorem delivers_of_deliver {listing : String} (hclosed : AtomicWrite.closed listing = listing ++ "\n") {s s' : Session}
    (h : Session.Spares a.outputPlaces before s) (hrun : (deliver now listing a.output).run s = .ok () s') :
    a.Delivers before s' (listing ++ "\n") := by
  unfold Arguments.Delivers
  cases ha : a.outputFile with
  | none =>
      rw [deliver_of_none ha] at hrun
      cases hrun
      show s.printed ++ (listing ++ "\n") = before.printed ++ (listing ++ "\n")
      rw [h.printed]
  | some path =>
      obtain ⟨file, hdeliver⟩ := deliver_of_some now ha listing
      rw [hdeliver, EStateM.run_bind, Session.run_onDisk] at hrun
      cases hwrite : (AtomicWrite.writeText path listing).run s.disk with
      | error e' d =>
          rw [hwrite] at hrun
          cases hrun
      | ok _ d =>
          rw [hwrite] at hrun
          obtain rfl : (s.withDisk d).said now [written listing file] = s' := (EStateM.Result.ok.inj hrun).2
          have hreaches := reaches_of_writeText ha listing s.disk
          rw [hwrite] at hreaches
          obtain ⟨hplace, htext⟩ := AtomicWrite.text_of_write FileWork.faithful_perform hwrite
          -- What is said of the delivery is the last thing that happens, and it is said elsewhere.
          have hsaid : Session.Spares a.outputPlaces (s.withDisk d) ((s.withDisk d).said now [written listing file]) :=
            Session.spares_said ⟨.refl _ _, avoids_of_write h.avoids hreaches⟩ now _
          refine ⟨hsaid.printed.trans h.printed, ?_⟩
          have htarget : path.spelled ∈ a.outputPlaces := by
            rw [Arguments.outputPlaces_of_some ha]
            exact List.mem_cons_self
          refine FileTree.content_of_text (FileTree.place_mono hsaid.directory hplace) ?_
          rw [hsaid.text _ htarget, ← hclosed]
          exact htext.trans (by simp [String.join])

end

theorem closed_of_listingOf {listing : String} {place : Path} {s : Session}
    (h : a.listingOf now place s = .ok listing) : AtomicWrite.closed listing = listing ++ "\n" := by
  obtain ⟨job, -, h⟩ := bind_eq_ok.mp h
  obtain ⟨fallback, -, h⟩ := bind_eq_ok.mp h
  obtain ⟨config, -, h⟩ := bind_eq_ok.mp h
  obtain ⟨ops, -, h⟩ := bind_eq_ok.mp h
  obtain ⟨names, -, h⟩ := bind_eq_ok.mp h
  exact Generator.closed_of_answer (mapError_eq_ok.mp h)

theorem spares_of_render_error {place : Path} {e : Failure} {s s' : Session}
    (h : Session.Spares a.outputPlaces before s) (hrun : (render now a place).run s = .error e s') :
    Session.Spares a.target before s' := by
  rw [render_eq, EStateM.run_bind] at hrun
  cases hlisted : (listed now a place).run s with
  | error e' q =>
      rw [hlisted] at hrun
      cases hrun
      exact ((keeps_listed lasts_spares now a place).error h hlisted).of_subset a.target_subset
  | ok listing q =>
      rw [hlisted] at hrun
      exact spares_of_deliver_error ((keeps_listed lasts_spares now a place).ok h hlisted) hrun

theorem makes_of_render_error {place : Path} {e : Failure} {s s' : Session} (h : Session.Makes a.MakesAt before s)
    (hrun : (render now a place).run s = .error e s') : Session.Makes a.MakesAt before s' := by
  rw [render_eq, EStateM.run_bind] at hrun
  cases hlisted : (listed now a place).run s with
  | error e' q =>
      rw [hlisted] at hrun
      cases hrun
      exact (keeps_listed (lasts_makes _) now a place).error h hlisted
  | ok listing q =>
      rw [hlisted] at hrun
      exact makes_of_deliver_error ((keeps_listed (lasts_makes _) now a place).ok h hlisted) hrun

theorem delivers_of_render {place : Path} {s s' : Session} (h : Session.Spares a.outputPlaces before s)
    (hrun : (render now a place).run s = .ok () s') :
    ∃ listing, a.listingOf now place s = .ok listing ∧ a.Delivers before s' (listing ++ "\n") := by
  rw [render_eq] at hrun
  obtain ⟨listing, q, hlisted, hdeliver⟩ := run_bind_eq_ok.mp hrun
  have hlisting : a.listingOf now place s = .ok listing := by rw [← answers_listed, hlisted, answers]
  exact ⟨listing, hlisting,
    delivers_of_deliver (closed_of_listingOf hlisting) ((keeps_listed lasts_spares now a place).ok h hlisted) hdeliver⟩

end Work

/-! ### Runs

The rules in `Comes` are read off the program of a run once.  There is one for each place at
which a run can stop, and they say what session it stops with; every statement about runs goes
through them, and none looks at the program again.
-/

/-- The code of a run that came to its end. -/
def Ending.finishedCode? : Ending → Option Nat
  | finished code => some code
  | _ => none

/-- The session with the name of the program gone from the context. -/
def ended (s : Session) : Session := { s with journal := s.journal.pop ["program"] }

/-- How a run ends and what session it leaves, rule by rule. -/
inductive Comes (now : Instant) (a : Arguments) (s : Session) : Ending → Session → Prop where
  /-- The job is named by nothing. -/
  | noPath {e : Path.NotPath} (hplace : Path.ofValue? a.job.toValue = .error e) : Comes now a s (.failed (.noPath e)) s
  /-- The journal cannot be set up. -/
  | noJournal {place : Path} {e : SetupError} {s' : Session} (hplace : Path.ofValue? a.job.toValue = .ok place)
      (hsetup : (Session.setUp (a.setup place)).run s = .error e s') : Comes now a s (.failed (.setup e)) s'
  /-- The listing is delivered. -/
  | finished {place : Path} {opened s' : Session} (hplace : Path.ofValue? a.job.toValue = .ok place)
      (hsetup : (Session.setUp (a.setup place)).run s = .ok () opened)
      (hrender : (Work.render now a place).run opened = .ok () s') : Comes now a s (.finished 0) (ended s')
  /-- What went wrong is reported. -/
  | reported {place : Path} {e : Failure} {opened s' : Session} (hplace : Path.ofValue? a.job.toValue = .ok place)
      (hsetup : (Session.setUp (a.setup place)).run s = .ok () opened)
      (hrender : (Work.render now a place).run opened = .error e s') (he : e.isReported = true) :
      Comes now a s (.finished 1) (ended (s'.deliver (.ofNote now (Work.reported e))))
  /-- What went wrong ends the run. -/
  | failed {place : Path} {e : Failure} {opened s' : Session} (hplace : Path.ofValue? a.job.toValue = .ok place)
      (hsetup : (Session.setUp (a.setup place)).run s = .ok () opened)
      (hrender : (Work.render now a place).run opened = .error e s') (he : e.isReported = false) :
      Comes now a s (.failed e) (ended s')

variable {now : Instant} {a : Arguments} {s s' : Session} {ending : Ending}

theorem comes_runArguments (now : Instant) (a : Arguments) (s : Session) :
    Comes now a s (runArguments now a s).1 (runArguments now a s).2 := by
  unfold runArguments
  cases hplace : Path.ofValue? a.job.toValue with
  | error e => exact .noPath hplace
  | ok place =>
      dsimp only
      cases hsetup : (Session.setUp (a.setup place)).run s with
      | error e q => exact .noJournal hplace hsetup
      | ok _ q =>
          dsimp only
          cases hrender : (Work.render now a place).run q with
          | ok _ r => exact .finished hplace hsetup hrender
          | error e r =>
              dsimp only
              by_cases he : e.isReported = true
              · rw [if_pos he]
                exact .reported hplace hsetup hrender he
              · rw [if_neg he]
                exact .failed hplace hsetup hrender ((Bool.not_eq_true _).mp he)

/-- Where the journal is set up the listing is what the files make then. -/
theorem Arguments.listing_of_setUp {place : Path} {opened : Session} (hplace : Path.ofValue? a.job.toValue = .ok place)
    (hsetup : (Session.setUp (a.setup place)).run s = .ok () opened) :
    a.listing now s = a.listingOf now place opened := by
  rw [listing, hplace]
  show (match (Session.setUp (a.setup place)).run s with
    | .error e _ => Except.error (Failure.setup e)
    | .ok () s => a.listingOf now place s) = _
  rw [hsetup]

omit [DigitLimit] [Yaml.Reader] in
/-- Setting the journal up does nothing at places where none of its files is. -/
theorem Arguments.spares_setUp {places : List Place}
    (hlog : ∀ file, a.logFile = some file → file ≠ "" → (Path.ofText file).spelled ∉ places)
    (hattached : s.journal.release.Avoids places) (place : Path) :
    Session.Unchanged places s (leaves ((Session.setUp (a.setup place)).run s))
      ∧ ∀ opened, (Session.setUp (a.setup place)).run s = .ok () opened → Session.Spares places s opened := by
  refine Session.spares_setUp hattached fun htrue path hpath => ?_
  unfold setup at htrue hpath
  dsimp only at htrue hpath
  cases hfile : a.logFile with
  | none =>
      rw [hfile] at htrue
      cases htrue
  | some file =>
      rw [hfile] at htrue hpath
      obtain rfl := Except.ok.inj hpath
      refine hlog file hfile ?_
      rintro rfl
      cases htrue

omit [DigitLimit] [Yaml.Reader] in
theorem unchanged_ended {places : List Place} {before s : Session} (h : before.Unchanged places s) :
    before.Unchanged places (ended s) := ⟨h.printed, h.text, h.directory⟩

/-- A run that does not finish has printed nothing and left the output file as it was. -/
theorem unchanged_of_comes (h : a.WritesApart s) (hcomes : Comes now a s ending s') (hending : ending ≠ .finished 0) :
    s.Unchanged a.target s' := by
  cases hcomes with
  | noPath _ => exact .refl s _
  | @noJournal place e _ _ hsetup =>
      have hleft := (Arguments.spares_setUp h.log h.attached place).1
      rw [hsetup] at hleft
      exact hleft.of_subset a.target_subset
  | finished _ _ _ => exact absurd rfl hending
  | @reported place e opened q _ hsetup hrender _ =>
      have hleft := Work.spares_of_render_error ((Arguments.spares_setUp h.log h.attached place).2 opened hsetup) hrender
      exact unchanged_ended (Session.spares_deliver hleft _).toUnchanged
  | @failed place e opened q _ hsetup hrender _ =>
      have hleft := Work.spares_of_render_error ((Arguments.spares_setUp h.log h.attached place).2 opened hsetup) hrender
      exact unchanged_ended hleft.toUnchanged

/-- The directories that it has made are above the output or above the file of its journal. -/
theorem makes_of_comes (hcomes : Comes now a s ending s') (hending : ending ≠ .finished 0) :
    Session.Makes a.MakesAt s s' := by
  have hsetup (place : Path) : Session.Makes a.MakesAt s (leaves ((Session.setUp (a.setup place)).run s)) := by
    refine Session.makes_setUp fun htrue path hpath n => ?_
    unfold Arguments.setup at htrue hpath
    dsimp only at htrue hpath
    cases hfile : a.logFile with
    | none =>
        rw [hfile] at htrue
        cases htrue
    | some file =>
        rw [hfile] at htrue hpath
        obtain rfl := Except.ok.inj hpath
        refine ⟨_, Or.inr ⟨file, hfile, ?_, rfl⟩, n, rfl⟩
        rintro rfl
        cases htrue
  cases hcomes with
  | noPath _ => exact .start
  | @noJournal place e _ _ hrun =>
      have hleft := hsetup place
      rwa [hrun] at hleft
  | finished _ _ _ => exact absurd rfl hending
  | @reported place e opened q _ hrun hrender _ =>
      have hopened := hsetup place
      rw [hrun] at hopened
      exact Session.makes_deliver (Work.makes_of_render_error hopened hrender) _
  | @failed place e opened q _ hrun hrender _ =>
      have hopened := hsetup place
      rw [hrun] at hopened
      have hmade : Session.Makes a.MakesAt s q := Work.makes_of_render_error hopened hrender
      exact hmade

/-- What stands at the place of the output is kept by a run that does not finish. -/
theorem keptAt_of_comes (h : a.WritesApart s) (hcomes : Comes now a s ending s') (hending : ending ≠ .finished 0)
    {place : Place} (hplace : place ∈ a.target) : a.KeptAt s.disk.tree s'.disk.tree place := by
  have hunchanged := unchanged_of_comes h hcomes hending
  refine (FileTree.entry?_of_kept (hunchanged.text place hplace) (hunchanged.directory place)).imp_right ?_
  rintro ⟨hnone, hmade⟩
  refine ⟨hnone, hmade, ?_⟩
  rcases (makes_of_comes hcomes hending).directory hmade with hbefore | habove
  · cases hnone.symm.trans hbefore
  · exact habove

/-- A run that finishes has delivered its listing. -/
theorem delivers_of_comes (h : a.WritesApart s) (hcomes : Comes now a s (.finished 0) s') :
    ∃ listing, a.listing now s = .ok listing ∧ a.Delivers s s' (listing ++ "\n") := by
  cases hcomes with
  | @finished place opened q hplace hsetup hrender =>
      obtain ⟨listing, hlisting, hdelivers⟩ :=
        Work.delivers_of_render ((Arguments.spares_setUp h.log h.attached place).2 opened hsetup) hrender
      refine ⟨listing, ?_, ?_⟩
      · rw [Arguments.listing_of_setUp hplace hsetup]
        exact hlisting
      · unfold Arguments.Delivers at hdelivers ⊢
        exact hdelivers

/-- The arguments with another output. -/
def Arguments.writingTo (a : Arguments) (output : Option String) : Arguments := { a with output }

/-- **The effects of a run.**  A run that does not finish, whether it reports what went wrong or fails, has printed
nothing, and what is at the place of the output file is what it was, or a directory that was made above a file of the
run where there was nothing.  A run that finishes has delivered the
generator's listing of its job with one line end behind it: printed it where no output file is named, and left the
file with it, printing nothing, where one is.  So whatever the output, the text is the same. -/
theorem effects_of_runArguments (now : Instant) (a : Arguments) (s : Session) (h : a.WritesApart s) :
    ((runArguments now a s).1 ≠ .finished 0 → (runArguments now a s).2.printed = s.printed
      ∧ ∀ path, a.outputFile = some path →
          a.KeptAt s.disk.tree (runArguments now a s).2.disk.tree path.spelled)
    ∧ ((runArguments now a s).1 = .finished 0 → ∃ listing, a.listing now s = .ok listing
      ∧ a.Delivers s (runArguments now a s).2 (listing ++ "\n"))
    ∧ ∀ output, (a.writingTo output).WritesApart s → (runArguments now a s).1 = .finished 0 →
        (runArguments now (a.writingTo output) s).1 = .finished 0 →
        ∃ text, a.Delivers s (runArguments now a s).2 text
          ∧ (a.writingTo output).Delivers s (runArguments now (a.writingTo output) s).2 text := by
  have hcomes := comes_runArguments now a s
  have hfinished (a : Arguments) (h : a.WritesApart s) (hend : (runArguments now a s).1 = .finished 0) :
      ∃ listing, a.listing now s = .ok listing ∧ a.Delivers s (runArguments now a s).2 (listing ++ "\n") :=
    delivers_of_comes h (hend ▸ comes_runArguments now a s)
  refine ⟨?_, hfinished a h, ?_⟩
  · intro hend
    have hunchanged := unchanged_of_comes h hcomes hend
    refine ⟨hunchanged.printed, fun path ha => keptAt_of_comes h hcomes hend ?_⟩
    rw [Arguments.target_of_some ha]
    exact List.mem_singleton_self _
  · intro output hother hend hend'
    obtain ⟨listing, hlisting, hdelivers⟩ := hfinished a h hend
    obtain ⟨listing', hlisting', hdelivers'⟩ := hfinished (a.writingTo output) hother hend'
    -- The listing is made before anybody asks where it is to go.
    have hsame : (a.writingTo output).listing now s = a.listing now s := rfl
    rw [hsame, hlisting] at hlisting'
    rw [← Except.ok.inj hlisting'] at hdelivers'
    exact ⟨listing ++ "\n", hdelivers, hdelivers'⟩

end Command

end

namespace Command

theorem Ending.eq_finished {ending : Ending} {code : Nat} (h : ending.finishedCode? = some code) :
    ending = .finished code := by
  cases ending with
  | finished c => rw [Option.some.inj h]
  | notBegun c => cases h
  | failed e => cases h

theorem writesApart_initial {a : Arguments} (h : ∀ file, a.logFile = some file → file ≠ "" →
    (Path.ofText file).spelled ∉ a.outputPlaces) (t : FileTree) (terminal : Bool) :
    a.WritesApart (.initial t terminal) where
  log := h
  attached o ho := by cases ho

/-- With a journal kept next to the output, a job that is no map leaves the old output in its place, and a program
of its own name is the same text in the file as on the console. -/
theorem effects_of_runArguments_of_program :
    let a : Arguments := ⟨.just "j", none, some "o", .just 0, false, .just "INFO", some "l", false⟩
    let bad : Session := .initial ⟨[(["j"], .file "1"), (["o"], .file "old")]⟩ false
    let good : Session := .initial ⟨[(["j"], .file "program: {name: 7}"), (["o"], .file "old")]⟩ false
    a.WritesApart bad ∧ (runArguments ⟨0⟩ a bad).1 = .finished 1 ∧ (runArguments ⟨0⟩ a bad).2.printed = ""
    ∧ (runArguments ⟨0⟩ a bad).2.disk.tree.entry? ["o"] = some (.file "old")
    ∧ a.WritesApart good ∧ (runArguments ⟨0⟩ a good).1 = .finished 0
    ∧ (a.writingTo none).WritesApart good ∧ (runArguments ⟨0⟩ (a.writingTo none) good).1 = .finished 0
    ∧ ∃ text, a.Delivers good (runArguments ⟨0⟩ a good).2 text
      ∧ (a.writingTo none).Delivers good (runArguments ⟨0⟩ (a.writingTo none) good).2 text := by
  intro a bad good
  have hlog (file : String) (hfile : a.logFile = some file) (_ : file ≠ "") :
      (Path.ofText file).spelled ∉ a.outputPlaces := by
    rw [← Option.some.inj hfile]
    decide +kernel
  have hbad : a.WritesApart bad := writesApart_initial hlog _ _
  have hgood : a.WritesApart good := writesApart_initial hlog _ _
  have hprinting : (a.writingTo none).WritesApart good := writesApart_initial (fun _ _ _ => List.not_mem_nil) _ _
  have hreported : (runArguments ⟨0⟩ a bad).1 = .finished 1 := Ending.eq_finished (by decide +kernel)
  have hwritten : (runArguments ⟨0⟩ a good).1 = .finished 0 := Ending.eq_finished (by decide +kernel)
  have hprinted : (runArguments ⟨0⟩ (a.writingTo none) good).1 = .finished 0 :=
    Ending.eq_finished (by decide +kernel)
  have hend : (runArguments ⟨0⟩ a bad).1 ≠ .finished 0 := by
    rw [hreported]
    intro h
    injection h with hcode
    cases hcode
  obtain ⟨hsilent, hold⟩ := (effects_of_runArguments ⟨0⟩ a bad hbad).1 hend
  have hplace : (Path.ofText "o").spelled = ["o"] := by decide
  have hbefore : bad.disk.tree.entry? ["o"] = some (.file "old") := by decide
  have hkept := hold (.ofText "o") (by decide)
  rw [hplace] at hkept
  have hsame : (runArguments ⟨0⟩ a bad).2.disk.tree.entry? ["o"] = some (.file "old") := by
    rcases hkept with hsame | ⟨hnone, -⟩
    · exact hsame.trans hbefore
    · cases hbefore.symm.trans hnone
  exact ⟨hbad, hreported, hsilent, hsame, hgood, hwritten, hprinting, hprinted,
    (effects_of_runArguments ⟨0⟩ a good hgood).2.2 none hprinting hwritten hprinted⟩

end Command

end PartProgram
