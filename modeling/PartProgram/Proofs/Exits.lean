/-
How a run ends.

A run that has its files, its journal and a place for its listing ends in one of three ways.
It delivers the listing; or it says in the journal what went wrong and ends with a code for
that; or it fails.  The command line leaves the journal no threshold above that of errors, so
what is said of a failure is always taken, and it is the last thing that is.  The third way is
not meant to be there, and it is taken exactly where the files hold something that there are no
words for.

All of this holds for any reader of documents, as far as it makes values of the files or
refuses them as malformed.
-/
import PartProgram.Proofs.Inputs
import PartProgram.Proofs.Outlets
import PartProgram.Yaml.Document

namespace PartProgram

section

variable [DigitLimit]

/-! ### The threshold of a run -/

/-- The session's journal has the given threshold. -/
def Session.HasThreshold (level : Int) (s : Session) : Prop := s.journal.threshold = level

theorem Session.threshold_deliver (s : Session) (r : Record) : (s.deliver r).journal.threshold = s.journal.threshold := by
  rw [(moved_deliver r s).threshold, Journal.noted]
  split
  · rfl
  · rfl

theorem Command.Work.lasts_threshold (level : Int) : Lasts (Session.HasThreshold level) where
  deliver s r h := (Session.threshold_deliver s r).trans h
  push _ _ h := h

omit [DigitLimit] in
/-- A journal that is set up has the threshold that was asked for. -/
theorem Session.threshold_of_setUp {level : Int} {s s' : Session} {what : Setup} (hlevel : threshold what.level = .ok level)
    (h : (setUp what).run s = .ok () s') : s'.HasThreshold level := by
  have hways := setsUp what s
  rw [h] at hways
  cases hways with
  | done hasked hopened hkinds hjournal =>
      obtain rfl := Except.ok.inj (hlevel.symm.trans hasked)
      rw [HasThreshold, hjournal]
      exact hopened.threshold

namespace Command

/-! ### The level of a command line

The switches are read one after another into a draft, and only one of them sets the level, to
one of the few that it accepts.  That is an invariant of the draft.  None of these levels is
above that of errors, so the journal of a run always takes what is said of a failure.
-/

/-- The levels that the command line can ask for, or none where the switch is left empty. -/
def Draft.IsLevelled (d : Draft) : Prop := ∀ name, d.logLevel = .just name → name ∈ levels

namespace Draft

variable {d d' : Draft}

omit [DigitLimit] in
theorem isLevelled_empty (hd : d.IsLevelled) (s : Switch) : (d.empty s).IsLevelled := by
  cases s with
  | logLevel =>
      intro name hname
      cases hname
  | _ => exact hd

omit [DigitLimit] in
theorem isLevelled_turnOn (hd : d.IsLevelled) (s : Switch) : (d.turnOn s).IsLevelled := by
  cases s <;> exact hd

theorem isLevelled_put {s : Switch} {v : String} (hd : d.IsLevelled) (h : d.put s v = .ok d') : d'.IsLevelled := by
  cases s with
  | seed =>
      simp only [put] at h
      split at h
      · obtain rfl := Except.ok.inj h
        exact hd
      · cases h
  | logLevel =>
      simp only [put] at h
      split at h
      · rename_i hv
        obtain rfl := Except.ok.inj h
        intro name hname
        injection hname with hname
        rw [← hname]
        exact List.contains_iff_mem.mp hv
      · cases h
  | help => cases h
  | strict => cases h
  | logJson => cases h
  | _ =>
      obtain rfl := Except.ok.inj h
      exact hd

theorem isLevelled_give {s : Switch} {v : String} (hd : d.IsLevelled) (h : d.give s v = .ok d') : d'.IsLevelled := by
  unfold give at h
  split at h
  · obtain rfl := Except.ok.inj h
    exact isLevelled_empty hd s
  · exact isLevelled_put hd h

theorem isLevelled_take {w : Word} (hd : d.IsLevelled) (h : d.take w = .ok d') : d'.IsLevelled := by
  unfold take at h
  split at h
  · cases h
  · exact isLevelled_give (d := { d with pending := none }) hd (mapError_eq_ok.mp h)
  · cases h
  · obtain rfl := Except.ok.inj h
    exact hd
  · obtain rfl := Except.ok.inj h
    exact hd
  · obtain rfl := Except.ok.inj h
    exact hd
  · unfold takeSwitch at h
    split at h
    · obtain rfl := Except.ok.inj h
      exact hd
    · split at h
      · cases h
      · obtain rfl := Except.ok.inj h
        exact isLevelled_turnOn hd _
  · unfold takeAttached at h
    split at h
    · exact isLevelled_give hd (mapError_eq_ok.mp h)
    · split at h
      · cases h
      · split at h
        · cases h
        · cases h
        · obtain rfl := Except.ok.inj h
          exact hd

theorem isLevelled_foldlM {words : List Word} (hd : d.IsLevelled) (h : words.foldlM take d = .ok d') : d'.IsLevelled := by
  induction words generalizing d with
  | nil =>
      obtain rfl := Except.ok.inj h
      exact hd
  | cons w rest ih =>
      rw [List.foldlM_cons] at h
      obtain ⟨next, hnext, h⟩ := bind_eq_ok.mp h
      exact ih (isLevelled_take hd hnext) h

end Draft

/-- A command line asks for one of its levels. -/
theorem mem_levels_of_read {args : List String} {a : Arguments} (h : Request.read args = .ok (.run a)) {name : String}
    (hname : a.logLevel = .just name) : name ∈ levels := by
  obtain ⟨words, -, h⟩ := bind_eq_ok.mp h
  split at h
  · rename_i d hd
    have hstart : Draft.start.IsLevelled := by
      intro name hname
      injection hname with hname
      rw [← hname]
      decide
    have hlevelled := Draft.isLevelled_foldlM hstart hd
    unfold Draft.finish at h
    split at h
    · cases h
    · cases h
    · split at h
      · injection h with h
        injection h with h
        rw [← h] at hname
        exact hlevelled name hname
      · cases h
  · cases h
  · cases h

omit [DigitLimit] in
/-- Every level of the command line lets errors through. -/
theorem threshold_of_mem_levels {name : String} (h : name ∈ levels) :
    ∃ level, Session.threshold (.text name) = .ok level ∧ level ≤ Severity.error.number := by
  simp only [levels, List.mem_cons, List.not_mem_nil, or_false] at h
  rcases h with rfl | rfl | rfl | rfl
  · exact ⟨10, rfl, by decide⟩
  · exact ⟨20, rfl, by decide⟩
  · exact ⟨30, rfl, by decide⟩
  · exact ⟨40, rfl, by decide⟩

/-! ### Runs that are served

What has to be asked of a run so that it can be judged by its files is collected in `Served`.
The files are the ones that were there before the journal was set up: the journal has a file of
its own, and so setting it up leaves them as they were.
-/

variable [Yaml.Reader]

/-- The places of the files that a run reads. -/
def Arguments.inputPlaces (a : Arguments) (place : Path) : List Place :=
  place.spelled :: (a.configPath?.map Path.spelled).toList

/-- What a run can work with.  Nothing that needs a value is left empty; the files that it reads are there and hold
texts; its journal can be set up, in a file of its own; and whatever listing is made can be delivered. -/
structure Arguments.Served (now : Instant) (a : Arguments) (s : Session) (place : Path) : Prop where
  named : Path.ofValue? a.job.toValue = .ok place
  job : Legible s.disk.tree place
  config : a.config ≠ some .nothing
  settings : ∀ p, a.configPath? = some p → Legible s.disk.tree p
  seed : a.seed ≠ .nothing
  log : ∀ file, a.logFile = some file → file ≠ "" → (Path.ofText file).spelled ∉ a.inputPlaces place
  attached : s.journal.release.Avoids (a.inputPlaces place)
  opens : ∃ opened, (Session.setUp (a.setup place)).run s = .ok () opened
  delivers : ∀ opened listing made, (Session.setUp (a.setup place)).run s = .ok () opened →
    (Work.listed now a place).run opened = .ok listing made →
    ∃ after, (Work.deliver now listing a.output).run made = .ok () after

end Command

omit [DigitLimit] in
/-- A file that is spared holds the text that it held. -/
theorem Session.Unchanged.content {places : List Place} {before s : Session} (h : before.Unchanged places s) {p : Path}
    (hp : p.spelled ∈ places) {text : String} (htext : before.disk.tree.content p = .ok text) :
    s.disk.tree.content p = .ok text := by
  have hfind := FileTree.find_of_content htext
  obtain ⟨place, hplace, hentry⟩ := bind_eq_ok.mp hfind
  obtain rfl := FileTree.spelled_of_place hplace
  refine FileTree.content_of_text (FileTree.place_mono h.directory hplace) ?_
  rw [h.text p.spelled hp]
  unfold FileTree.text?
  split at hentry
  · rename_i e he
    rw [he, Except.ok.inj hentry]
  · cases hentry

namespace Command

variable [Yaml.Reader] {now : Instant} {a : Arguments} {s opened : Session} {place : Path}

/-- A run that is served finds its files as they were before the journal was set up. -/
theorem Arguments.Served.fails_listing (h : a.Served now s place) :
    Fails (·.isReported = false) (a.listing now s) ↔ a.Stumbles s.disk.tree place := by
  obtain ⟨opened, hsetup⟩ := h.opens
  rw [Arguments.listing_of_setUp h.named hsetup]
  have hspares := (spares_setUp h.log h.attached place).2 opened hsetup
  have hload : Job.load opened.disk.tree place = Job.load s.disk.tree place := by
    obtain ⟨text, htext, -⟩ := h.job
    exact Job.load_congr htext (hspares.content List.mem_cons_self htext)
  refine Command.fails_listingOf h.config h.seed ?_ h.settings h.job hload
  cases hp : a.configPath? with
  | none => rfl
  | some p =>
      obtain ⟨text, htext, -⟩ := h.settings p hp
      have hplace : p.spelled ∈ a.inputPlaces place := by
        rw [inputPlaces, hp]
        exact List.mem_cons_of_mem _ List.mem_cons_self
      have hsaid := Session.spares_said hspares now (Config.loadingNotes opened.disk.tree (some p))
      exact Config.readFile_congr htext (hsaid.content hplace htext)

/-- All that can go wrong with a run that is served is that there is no listing. -/
theorem Arguments.Served.listed_of_error (h : a.Served now s place)
    (hsetup : (Session.setUp (a.setup place)).run s = .ok () opened) {e : Failure} {s' : Session}
    (hrender : (Work.render now a place).run opened = .error e s') : (Work.listed now a place).run opened = .error e s' := by
  rw [Work.render_eq, EStateM.run_bind] at hrender
  cases hlisted : (Work.listed now a place).run opened with
  | error e' made =>
      rw [hlisted] at hrender
      cases hrender
      rfl
  | ok listing made =>
      obtain ⟨after, hdeliver⟩ := h.delivers opened listing made hsetup hlisted
      rw [hlisted] at hrender
      have hrender : (Work.deliver now listing a.output).run made = .error e s' := hrender
      rw [hdeliver] at hrender
      cases hrender

/-- The journal of a run takes what is said of a failure. -/
theorem takes_of_listed {args : List String} (hread : Request.read args = .ok (.run a))
    (hsetup : (Session.setUp (a.setup place)).run s = .ok () opened) {e : Failure} {s' : Session}
    (hlisted : (Work.listed now a place).run opened = .error e s') :
    s'.journal.takes (Record.ofNote now (Work.reported e)).level = true := by
  cases hlevel : a.logLevel with
  | nothing =>
      have hthreshold : Session.threshold (a.setup place).level = .error (.namelessLevel "list") := by
        rw [Arguments.setup, hlevel]
        rfl
      rw [Session.setUp_eq_throw hthreshold] at hsetup
      cases hsetup
  | just name =>
      obtain ⟨level, hthreshold, hle⟩ := threshold_of_mem_levels (mem_levels_of_read hread hlevel)
      have hasked : Session.threshold (a.setup place).level = .ok level := by
        rw [Arguments.setup, hlevel]
        exact hthreshold
      have hkept : s'.journal.threshold = level :=
        (Work.keeps_listed (Work.lasts_threshold level) now a place).error (Session.threshold_of_setUp hasked hsetup) hlisted
      have hlevel : (Record.ofNote now (Work.reported e)).level = Severity.error.number := rfl
      rw [Journal.takes, hlevel, hkept]
      simp only [hle, decide_true, Bool.and_true, decide_eq_true_eq]
      decide

/-- What is said of a failure is the latest record when the run ends. -/
theorem head?_of_listed {args : List String} (hread : Request.read args = .ok (.run a))
    (hsetup : (Session.setUp (a.setup place)).run s = .ok () opened) {e : Failure} {s' : Session}
    (hlisted : (Work.listed now a place).run opened = .error e s') :
    (ended (s'.deliver (.ofNote now (Work.reported e)))).journal.entries.head?.map (·.record)
      = some (.ofNote now (Work.reported e)) := by
  show (s'.deliver (.ofNote now (Work.reported e))).journal.entries.head?.map (·.record) = _
  rw [(Session.moved_deliver _ s').entries, Journal.noted, if_pos (takes_of_listed hread hsetup hlisted)]
  rfl

/-- **The ways of a run** that is served: its listing is made and delivered, or there is none, and this is the last
thing that is said or it ends the run. -/
theorem Arguments.Served.ends {args : List String} (hread : Request.read args = .ok (.run a)) (h : a.Served now s place)
    {ending : Ending} {left : Session} (hcomes : Comes now a s ending left) :
    (ending = .finished 0 ∧ ∃ listing, a.listing now s = .ok listing)
    ∨ (ending = .finished 1 ∧ ∃ e, a.listing now s = .error e ∧ e.isReported = true
      ∧ left.journal.entries.head?.map (·.record) = some (.ofNote now (Work.reported e)))
    ∨ ∃ e, ending = .failed e ∧ a.listing now s = .error e ∧ e.isReported = false := by
  have hsame {other : Path} (hother : Path.ofValue? a.job.toValue = .ok other) : place = other :=
    Except.ok.inj (h.named.symm.trans hother)
  have hlisting {opened : Session} (hsetup : (Session.setUp (a.setup place)).run s = .ok () opened) :
      a.listing now s = answers ((Work.listed now a place).run opened) :=
    (Arguments.listing_of_setUp h.named hsetup).trans (Work.answers_listed now a place opened).symm
  cases hcomes with
  | noPath hplace =>
      rw [h.named] at hplace
      cases hplace
  | noJournal hplace hsetup =>
      obtain rfl := hsame hplace
      obtain ⟨opened, hopens⟩ := h.opens
      rw [hopens] at hsetup
      cases hsetup
  | finished hplace hsetup hrender =>
      obtain rfl := hsame hplace
      rw [Work.render_eq] at hrender
      obtain ⟨listing, made, hlisted, -⟩ := run_bind_eq_ok.mp hrender
      refine Or.inl ⟨rfl, listing, ?_⟩
      rw [hlisting hsetup, hlisted, answers]
  | @reported _ e _ _ hplace hsetup hrender he =>
      obtain rfl := hsame hplace
      have hlisted := h.listed_of_error hsetup hrender
      refine Or.inr (Or.inl ⟨rfl, e, ?_, he, head?_of_listed hread hsetup hlisted⟩)
      rw [hlisting hsetup, hlisted, answers]
  | @failed _ e _ _ hplace hsetup hrender he =>
      obtain rfl := hsame hplace
      have hlisted := h.listed_of_error hsetup hrender
      refine Or.inr (Or.inr ⟨e, rfl, ?_, he⟩)
      rw [hlisting hsetup, hlisted, answers]

/-- **How a run ends.**  A run that is served comes to its end with its listing, or it has said in the journal, as the
last thing, why there is none, and ends with the code for that, unless its files hold something that there are no words
for. -/
theorem finishes_iff {args : List String} (hread : Request.read args = .ok (.run a)) (h : a.Served now s place) :
    ((run now args s).1 = .finished 0
      ∨ (run now args s).1 = .finished 1 ∧ ∃ e, a.listing now s = .error e
        ∧ (run now args s).2.journal.entries.head?.map (·.record) = some (.ofNote now (Work.reported e)))
    ↔ ¬ a.Stumbles s.disk.tree place := by
  have hrun : run now args s = runArguments now a s := by
    rw [run, hread]
  rw [hrun, ← h.fails_listing]
  rcases h.ends hread (comes_runArguments now a s) with ⟨hend, listing, hlisting⟩ | ⟨hend, e, hlisting, he, hsaid⟩ | ⟨e, hend, hlisting, he⟩
  · rw [hlisting]
    exact iff_of_true (Or.inl hend) (not_fails_ok listing)
  · rw [hlisting, fails_error, he]
    exact iff_of_true (Or.inr ⟨hend, e, rfl, hsaid⟩) Bool.noConfusion
  · rw [hlisting, fails_error, hend]
    refine iff_of_false ?_ (not_not_intro he)
    rintro (hfinished | ⟨hfinished, -⟩)
    · cases hfinished
    · cases hfinished

end Command

end

/-- A job with a number for a key is neither written nor reported. -/
theorem Command.finishes_iff_of_numbered :
    let args := ["-j", "j.yaml"]
    let a : Arguments := ⟨.just "j.yaml", none, none, .just 0, false, .just "WARNING", none, false⟩
    let s : Session := .initial ⟨[(["j.yaml"], .file "1: 2\n")]⟩ false
    let place : Path := ⟨["j.yaml"]⟩
    Request.read args = .ok (.run a) ∧ a.Served ⟨0⟩ s place ∧ a.Stumbles s.disk.tree place
    ∧ ¬ ((run ⟨0⟩ args s).1 = .finished 0
      ∨ (run ⟨0⟩ args s).1 = .finished 1 ∧ ∃ e, a.listing ⟨0⟩ s = .error e
        ∧ (run ⟨0⟩ args s).2.journal.entries.head?.map (·.record) = some (.ofNote ⟨0⟩ (Work.reported e))) := by
  intro args a s place
  have hread : Request.read args = .ok (.run a) := by decide +kernel
  have hcontent : s.disk.tree.content place = .ok "1: 2\n" := by decide +kernel
  -- The document spells a map; it is the job that is made of it that fails.
  have hmap : ¬ Fails (fun _ => True) (Yaml.load "1: 2\n") := by decide +kernel
  have hfails : Fails (·.isRefusal = false) (Job.load s.disk.tree place) := by decide +kernel
  have hjob : Legible s.disk.tree place := ⟨_, hcontent, fun e he => absurd ⟨e, he, trivial⟩ hmap⟩
  have hserved : a.Served ⟨0⟩ s place := {
    named := by decide +kernel
    job := hjob
    config := by decide
    settings := fun p hp => by cases hp
    seed := by decide
    log := fun file hlog => by cases hlog
    attached := fun o ho => by cases ho
    opens := ⟨_, rfl⟩
    delivers := fun _ _ _ _ _ => ⟨_, rfl⟩ }
  obtain ⟨es, hfile, hodd⟩ := (Job.fails_load hjob).mp hfails
  have hstumbles : a.Stumbles s.disk.tree place := .jobKey hfile hodd
  exact ⟨hread, hserved, hstumbles, fun h => (finishes_iff hread hserved).mp h hstumbles⟩

end PartProgram
