/-
The outlets of a journal that is set up again and again.

A setup that gets past its level lets go of the outlets that the journal made before, makes new
ones, and attaches them at the very end.  So there are three ways of it: the level is refused and
nothing has happened; the file cannot be opened, and by then the old outlets are gone and the new
ones are not attached; or it comes through.  `SetsUp` says so once, with all that is known of the
journal in each case, and what holds of histories of setups is read off it.

Outlets are told apart by their numbers, which are given out in order and never again.  That is why
an outlet that the journal has let go of is not attached any more: the new ones have later
numbers, and those of somebody else were never its own.
-/
import PartProgram.Proofs.Deliveries

namespace PartProgram

/-- The kinds of the outlets that are asked for: one to the console and one to a file, at most. -/
def Setup.kinds (terminal : Bool) (what : Setup) : List OutletKind :=
  (if what.console then [.console (what.colour && terminal)] else [])
    ++ (if what.file.isTrue then [.file none what.form] else [])

/-! ### New outlets

Between the beginning of a setup and its end outlets are made and the file is opened, but
nothing is attached.  `Prepared` is what such a journal is like, and it is all that is left of a
setup that fails in between.
-/

/-- The journal at the beginning of a setup: with a threshold, and without the outlets that it made. -/
def Journal.restart (level : Int) (j : Journal) : Journal := { j.release with threshold := level }

/-- A journal with new outlets of its own, which are not attached yet, made of a journal that has none. -/
structure Journal.Prepared (j j' : Journal) : Prop where
  threshold : j'.threshold = j.threshold
  attached : j'.attached.map Outlet.unplaced = j.attached.map Outlet.unplaced
  own : j'.own.map (·.number) = List.range' j.nextNumber j'.own.length
  nextNumber : j'.nextNumber = j.nextNumber + j'.own.length
  context : j'.context = j.context
  entries : j'.entries = j.entries

namespace Journal

variable {j j' j'' : Journal}

theorem prepared_of_none (h : j.own = []) : j.Prepared j := by
  refine ⟨rfl, rfl, ?_, ?_, rfl, rfl⟩
  · rw [h]
    rfl
  · rw [h]
    rfl

theorem Prepared.moved (h : j.Prepared j') (hmoved : j'.Moved j'') : j.Prepared j'' := by
  have hlength : j''.own.length = j'.own.length := by simpa using congrArg List.length hmoved.own
  refine ⟨hmoved.threshold.trans h.threshold, hmoved.attached.trans h.attached, ?_, ?_, hmoved.context.trans h.context,
    hmoved.entries.trans h.entries⟩
  · rw [Outlet.map_number_of_unplaced hmoved.own, hlength]
    exact h.own
  · rw [hmoved.nextNumber, hlength]
    exact h.nextNumber

theorem Prepared.make (h : j.Prepared j') (kind : OutletKind) : j.Prepared (j'.make kind) := by
  have hlength : (j'.make kind).own.length = j'.own.length + 1 := List.length_append
  refine ⟨h.threshold, h.attached, ?_, ?_, h.context, h.entries⟩
  · rw [hlength, List.range'_concat, Nat.one_mul, ← h.own, ← h.nextNumber]
    exact List.map_append
  · rw [hlength, ← Nat.add_assoc, ← h.nextNumber]
    rfl

end Journal

namespace Session

variable {s s' : Session} {j : Journal} {what : Setup} {ε δ α : Type}

theorem keeps_prepared_onDisk (wrap : δ → ε) (work : EStateM δ Disk α) :
    Keeps (fun s : Session => j.Prepared s.journal) (onDisk wrap work) :=
  fun s h => h.moved (moved_onDisk wrap work s)

theorem keeps_prepared_make (kind : OutletKind) :
    Keeps (fun s : Session => j.Prepared s.journal) (onJournal (Journal.make kind) : EStateM ε Session Unit) :=
  fun _ h => h.make kind

theorem keeps_prepared_openConsole (what : Setup) : Keeps (fun s : Session => j.Prepared s.journal) (openConsole what) := by
  unfold openConsole
  split
  · exact Keeps.get.bind fun _ => keeps_prepared_make _
  · exact .pure ()

theorem keeps_prepared_openFile (file : Value) (form : Form) :
    Keeps (fun s : Session => j.Prepared s.journal) (openFile file form) := by
  unfold openFile
  split
  · exact .throw _
  · refine (keeps_prepared_onDisk _ _).bind fun _ => (keeps_prepared_onDisk _ _).bind fun _ => ?_
    exact Keeps.get.bind fun _ => .pure _

theorem keeps_prepared_openLog (what : Setup) : Keeps (fun s : Session => j.Prepared s.journal) (openLog what) := by
  unfold openLog
  split
  · exact (keeps_prepared_openFile _ _).bind fun _ => keeps_prepared_make _
  · exact .pure ()

/-- The kinds of a journal's own outlets. -/
def ownKinds (s : Session) : List OutletKind := s.journal.own.map fun o => o.kind.unplaced

theorem ownKinds_of_moved (h : s.journal.Moved s'.journal) : s'.ownKinds = s.ownKinds := by
  have hkinds := congrArg (List.map (·.kind)) h.own
  rwa [List.map_map, List.map_map] at hkinds

theorem run_openConsole (what : Setup) (s : Session) : ∃ s', (openConsole what).run s = .ok () s'
    ∧ s'.ownKinds = s.ownKinds ++ if what.console then [.console (what.colour && s.terminal)] else [] := by
  unfold openConsole
  split
  · exact ⟨_, rfl, List.map_append⟩
  · exact ⟨s, rfl, (List.append_nil _).symm⟩

theorem openFile_eq_ok {file : Value} {form : Form} {kind : OutletKind} (h : (openFile file form).run s = .ok kind s') :
    s.journal.Moved s'.journal ∧ kind.unplaced = .file none form := by
  unfold openFile at h
  split at h
  · cases h
  · rename_i path hpath
    obtain ⟨_, made, hmade, h⟩ := run_bind_eq_ok.mp h
    obtain ⟨_, opened, hopened, h⟩ := run_bind_eq_ok.mp h
    cases h
    have hfirst := moved_onDisk SetupError.file (FileWork.ensureDirectory path.parent) s
    have hsecond := moved_onDisk SetupError.file (FileWork.perform (.open_ path)) made
    rw [hmade] at hfirst
    rw [hopened] at hsecond
    exact ⟨hfirst.trans hsecond, rfl⟩

theorem openLog_eq_ok (h : (openLog what).run s = .ok () s') :
    s'.ownKinds = s.ownKinds ++ if what.file.isTrue then [.file none what.form] else [] := by
  unfold openLog at h
  split at h
  · rename_i hfile
    obtain ⟨kind, opened, hopen, h⟩ := run_bind_eq_ok.mp h
    cases h
    obtain ⟨hmoved, hkind⟩ := openFile_eq_ok hopen
    have hown : ownKinds { opened with journal := opened.journal.make kind } = opened.ownKinds ++ [kind.unplaced] :=
      List.map_append
    rw [if_pos hfile, ← ownKinds_of_moved hmoved, ← hkind]
    exact hown
  · rename_i hfile
    cases h
    rw [if_neg hfile, List.append_nil]

/-! ### The ways of a setup -/

/-- How a setup ends, and what becomes of the journal. -/
inductive SetsUp (what : Setup) (s : Session) : EStateM.Result SetupError Session Unit → Prop where
  /-- The level is refused, and nothing has happened. -/
  | refused {e : SetupError} (hlevel : threshold what.level = .error e) : SetsUp what s (.error e s)
  /-- The file cannot be opened. -/
  | stuck {level : Int} {e : SetupError} {opened : Session} (hlevel : threshold what.level = .ok level)
      (hopened : (s.journal.restart level).Prepared opened.journal) : SetsUp what s (.error e opened)
  /-- It comes through, and the new outlets are attached. -/
  | done {level : Int} {opened s' : Session} (hlevel : threshold what.level = .ok level)
      (hopened : (s.journal.restart level).Prepared opened.journal)
      (hkinds : opened.ownKinds = what.kinds s.terminal)
      (hjournal : s'.journal = opened.journal.attachOwn.push what.context) : SetsUp what s (.ok () s')

theorem run_setUp {level : Int} (h : threshold what.level = .ok level) (s : Session) :
    (setUp what).run s = (openConsole what >>= fun _ => openLog what >>= fun _ =>
      onJournal Journal.attachOwn >>= fun _ => onJournal (Journal.push what.context)).run
        { s with journal := s.journal.restart level } := by
  rw [setUp_eq h]
  rfl

theorem setsUp (what : Setup) (s : Session) : SetsUp what s ((setUp what).run s) := by
  cases hlevel : threshold what.level with
  | error e =>
      rw [setUp_eq_throw hlevel]
      exact .refused hlevel
  | ok level =>
      have hreleased : (s.journal.restart level).Prepared
          ({ s with journal := s.journal.restart level } : Session).journal := Journal.prepared_of_none rfl
      obtain ⟨shown, hconsole, hshown⟩ := run_openConsole what { s with journal := s.journal.restart level }
      have hprepared := (keeps_prepared_openConsole what).ok hreleased hconsole
      rw [run_setUp hlevel, EStateM.run_bind, hconsole]
      dsimp only
      rw [EStateM.run_bind]
      cases hlog : (openLog what).run shown with
      | error e opened => exact .stuck hlevel ((keeps_prepared_openLog what).error hprepared hlog)
      | ok _ opened =>
          refine .done hlevel ((keeps_prepared_openLog what).ok hprepared hlog) ?_ rfl
          rw [openLog_eq_ok hlog, hshown]
          rfl

end Session

/-! ### Histories

A sound journal has those of others attached in their order, its own behind them or not at all,
and has never given a number twice.  Any event keeps it sound, with what others have attached
added up along the history; the numbers made before stay below the next one, which is how
outlets that were let go of can be told for ever.
-/

namespace Session

/-- What happens to a session in the course of time. -/
inductive Event where
  | setUp (what : Setup)
  /-- Somebody else attaches an outlet. -/
  | attachOther
  | deliver (r : Record)
  /-- The context becomes another. -/
  | recontext (c : Context)
  /-- The files are changed. -/
  | change (op : FileOp)

variable [DigitLimit]

/-- The session after an event, whether or not what is tried comes through. -/
def Event.after (s : Session) : Event → Session
  | setUp what => leaves ((Session.setUp what).run s)
  | attachOther => { s with journal := s.journal.attachOther }
  | deliver r => s.deliver r
  | recontext c => { s with journal := { s.journal with context := c } }
  | change op => leaves ((onDisk SetupError.file (FileWork.perform op)).run s)

/-- The outlets that somebody else attaches in an event. -/
def Event.others (s : Session) : Event → List Outlet
  | attachOther => [⟨s.journal.nextNumber, .other⟩]
  | _ => []

/-- The session after a row of events. -/
def afterAll (s : Session) (events : List Event) : Session := events.foldl Event.after s

/-- The outlets that somebody else attaches in a row of events, in order. -/
def othersOf (s : Session) : List Event → List Outlet
  | [] => []
  | e :: rest => e.others s ++ (e.after s).othersOf rest

end Session

namespace Journal

variable {others : List Outlet} {made : List Nat} {j j' : Journal}

/-- What a journal is like when others have attached the given outlets and it has itself made, perhaps long ago, outlets
with the given numbers. -/
structure Sound (others : List Outlet) (made : List Nat) (j : Journal) : Prop where
  /-- Without its own outlets there are those of others, in order. -/
  released : j.release.attached = others
  foreign : ∀ o ∈ others, o.kind = .other
  once : (j.attached.map (·.number)).Nodup
  fresh : ∀ n ∈ (j.attached ++ j.own).map (·.number), n < j.nextNumber
  past : ∀ n ∈ made, n < j.nextNumber ∧ n ∉ others.map (·.number)

theorem sound_initial : Sound [] [] .initial where
  released := rfl
  foreign := by simp
  once := List.nodup_nil
  fresh := by simp [initial]
  past := by simp

/-- Whether an outlet is let go of. -/
theorem isKept_iff {ns : List Nat} {n : Nat} : (!ns.contains n) = true ↔ n ∉ ns := by
  rw [Bool.not_eq_true', List.contains_eq_mem, decide_eq_false_iff_not]

/-- The outlets of its own that a journal has now will be among those it has made. -/
theorem Sound.remember (h : j.Sound others made) : j.Sound others (j.own.map (·.number)) where
  released := h.released
  foreign := h.foreign
  once := h.once
  fresh := h.fresh
  past n hn := by
    refine ⟨h.fresh n (by rw [List.map_append]; exact List.mem_append_right _ hn), ?_⟩
    rw [← h.released]
    intro hmem
    obtain ⟨o, ho, rfl⟩ := List.mem_map.mp hmem
    exact isKept_iff.mp (List.mem_filter.mp ho).2 hn

theorem Sound.moved (h : j.Sound others made) (hmoved : j.Moved j') : j'.Sound others made where
  released := by
    have hreleased := hmoved.release.attached
    rw [h.released] at hreleased
    exact Outlet.eq_of_map_unplaced h.foreign hreleased
  foreign := h.foreign
  once := by
    rw [Outlet.map_number_of_unplaced hmoved.attached]
    exact h.once
  fresh := by
    rw [List.map_append, Outlet.map_number_of_unplaced hmoved.attached, Outlet.map_number_of_unplaced hmoved.own,
      ← List.map_append, hmoved.nextNumber]
    exact h.fresh
  past := by
    rw [hmoved.nextNumber]
    exact h.past

theorem Sound.noted (h : j.Sound others made) (r : Record) : (j.noted r).Sound others made := by
  unfold Journal.noted
  split
  · exact ⟨h.released, h.foreign, h.once, h.fresh, h.past⟩
  · exact h

theorem Sound.attachOther (h : j.Sound others made) :
    j.attachOther.Sound (others ++ [⟨j.nextNumber, .other⟩]) made where
  released := by
    have hnew : j.nextNumber ∉ j.own.map (·.number) := fun hmem =>
      Nat.lt_irrefl _ (h.fresh _ (by rw [List.map_append]; exact List.mem_append_right _ hmem))
    show (j.attached ++ [(⟨j.nextNumber, .other⟩ : Outlet)]).filter _ = others ++ [⟨j.nextNumber, .other⟩]
    rw [List.filter_append, ← h.released]
    exact congrArg (j.release.attached ++ ·) (List.filter_eq_self.mpr (List.forall_mem_singleton.mpr (isKept_iff.mpr hnew)))
  foreign := by
    rw [List.forall_mem_append, List.forall_mem_singleton]
    exact ⟨h.foreign, rfl⟩
  once := by
    show ((j.attached ++ [_]).map _).Nodup
    rw [List.map_append, List.nodup_append]
    refine ⟨h.once, List.nodup_cons.mpr ⟨List.not_mem_nil, List.nodup_nil⟩, fun m hm n hn => ?_⟩
    rw [List.mem_singleton.mp hn]
    exact Nat.ne_of_lt (h.fresh m (by rw [List.map_append]; exact List.mem_append_left _ hm))
  fresh n hn := by
    show n < j.nextNumber + 1
    have hcases : n ∈ (j.attached ++ j.own).map (·.number) ∨ n = j.nextNumber := by
      simp only [Journal.attachOther, List.map_append, List.mem_append, List.map_cons, List.map_nil, List.mem_singleton]
        at hn ⊢
      tauto
    rcases hcases with hold | rfl
    · exact Nat.lt_succ_of_lt (h.fresh n hold)
    · exact Nat.lt_succ_self _
  past n hn := by
    obtain ⟨hlt, hnot⟩ := h.past n hn
    refine ⟨Nat.lt_succ_of_lt hlt, ?_⟩
    rw [List.map_append, List.mem_append, List.map_singleton, List.mem_singleton, not_or]
    exact ⟨hnot, Nat.ne_of_lt hlt⟩

/-! New outlets are attached to others alone, or not attached at all. -/

variable {level : Int}

theorem Prepared.attached_eq (h : j.Sound others made) (hp : (j.restart level).Prepared j') : j'.attached = others :=
  Outlet.eq_of_map_unplaced h.foreign (hp.attached.trans (congrArg (List.map Outlet.unplaced) h.released))

theorem Sound.lt_of_mem_others (h : j.Sound others made) {n : Nat} (hn : n ∈ others.map (·.number)) :
    n < j.nextNumber := by
  rw [← h.released] at hn
  obtain ⟨o, ho, rfl⟩ := List.mem_map.mp hn
  refine h.fresh _ (List.mem_map_of_mem (List.mem_append_left _ ?_))
  exact (List.mem_filter.mp ho).1

/-- The numbers of the new outlets are those from the next one on. -/
theorem Prepared.mem_own (hp : (j.restart level).Prepared j') {n : Nat}
    (hn : n ∈ j'.own.map (·.number)) : j.nextNumber ≤ n ∧ n < j'.nextNumber := by
  rw [hp.own, List.mem_range'_1] at hn
  exact ⟨hn.1, hp.nextNumber ▸ hn.2⟩

theorem Prepared.disjoint (h : j.Sound others made) (hp : (j.restart level).Prepared j') {n : Nat}
    (hn : n ∈ others.map (·.number)) : n ∉ j'.own.map (·.number) := fun hown =>
  Nat.lt_irrefl _ (Nat.lt_of_lt_of_le (h.lt_of_mem_others hn) (hp.mem_own hown).1)

theorem Prepared.nextNumber_le (hp : (j.restart level).Prepared j') : j.nextNumber ≤ j'.nextNumber := by
  rw [hp.nextNumber]
  exact Nat.le_add_right _ _

theorem Prepared.past (h : j.Sound others made) (hp : (j.restart level).Prepared j') :
    ∀ n ∈ made, n < j'.nextNumber ∧ n ∉ others.map (·.number) := fun n hn =>
  ⟨Nat.lt_of_lt_of_le (h.past n hn).1 hp.nextNumber_le, (h.past n hn).2⟩

theorem Prepared.fresh (h : j.Sound others made) (hp : (j.restart level).Prepared j') {n : Nat}
    (hn : n ∈ (others ++ j'.own).map (·.number)) : n < j'.nextNumber := by
  rw [List.map_append] at hn
  rcases List.mem_append.mp hn with hold | hown
  · exact Nat.lt_of_lt_of_le (h.lt_of_mem_others hold) hp.nextNumber_le
  · exact (hp.mem_own hown).2

theorem Prepared.once (h : j.Sound others made) (hp : (j.restart level).Prepared j') :
    ((others ++ j'.own).map (·.number)).Nodup := by
  rw [List.map_append, List.nodup_append]
  refine ⟨?_, ?_, fun m hm n hn hmn => hp.disjoint h hm (hmn ▸ hn)⟩
  · rw [← h.released]
    exact h.once.sublist (List.filter_sublist.map _)
  · rw [hp.own]
    exact List.nodup_range'

/-- A setup that is stuck leaves the outlets of others. -/
theorem Sound.prepared (h : j.Sound others made) (hp : (j.restart level).Prepared j') : j'.Sound others made := by
  have hattached := hp.attached_eq h
  refine ⟨?_, h.foreign, ?_, ?_, hp.past h⟩
  · rw [← hattached]
    refine List.filter_eq_self.mpr fun o ho => isKept_iff.mpr (hp.disjoint h (List.mem_map_of_mem ?_))
    rw [← hattached]
    exact ho
  · rw [hattached]
    exact (List.nodup_append.mp (List.map_append ▸ hp.once h)).1
  · rw [hattached]
    exact fun n hn => hp.fresh h hn

/-- A setup that comes through attaches the new outlets behind those of others. -/
theorem Sound.attachOwn (h : j.Sound others made) (hp : (j.restart level).Prepared j') :
    j'.attachOwn.attached = others ++ j'.own ∧ j'.attachOwn.Sound others made := by
  have hattached : j'.attachOwn.attached = others ++ j'.own := congrArg (· ++ j'.own) (hp.attached_eq h)
  refine ⟨hattached, ?_, h.foreign, ?_, ?_, fun n hn => hp.past h n hn⟩
  · show j'.attachOwn.attached.filter (fun o => !(j'.own.map (·.number)).contains o.number) = others
    have hothers : others.filter (fun o => !(j'.own.map (·.number)).contains o.number) = others :=
      List.filter_eq_self.mpr fun o ho => isKept_iff.mpr (hp.disjoint h (List.mem_map_of_mem ho))
    have hown : j'.own.filter (fun o => !(j'.own.map (·.number)).contains o.number) = [] :=
      List.filter_eq_nil_iff.mpr fun o ho hkept => isKept_iff.mp hkept (List.mem_map_of_mem ho)
    rw [hattached, List.filter_append, hothers, hown, List.append_nil]
  · rw [hattached]
    exact hp.once h
  · rw [hattached]
    intro n hn
    refine hp.fresh h ?_
    simp only [Journal.attachOwn, List.map_append, List.mem_append] at hn ⊢
    tauto

/-- What is in the context is nothing to the outlets. -/
theorem Sound.recontext (h : j.Sound others made) (c : Context) : { j with context := c }.Sound others made :=
  ⟨h.released, h.foreign, h.once, h.fresh, h.past⟩

end Journal

namespace Session

variable [DigitLimit] {s s' : Session} {others : List Outlet} {made : List Nat} {what : Setup}

omit [DigitLimit] in
theorem sound_setUp (h : s.journal.Sound others made) (what : Setup) :
    (leaves ((setUp what).run s)).journal.Sound others made := by
  have hways := setsUp what s
  cases hrun : (setUp what).run s with
  | error e left =>
      rw [hrun] at hways
      cases hways with
      | refused hlevel => exact h
      | stuck hlevel hopened => exact h.prepared hopened
  | ok _ left =>
      rw [hrun] at hways
      cases hways with
      | done hlevel hopened hkinds hjournal =>
          show left.journal.Sound others made
          rw [hjournal]
          exact (h.attachOwn hopened).2.recontext _

/-- What an event keeps. -/
theorem sound_after (h : s.journal.Sound others made) (e : Event) : (e.after s).journal.Sound (others ++ e.others s) made := by
  have hnone {j : Journal} (hj : j.Sound others made) : j.Sound (others ++ []) made := by rwa [List.append_nil]
  cases e with
  | setUp what => exact hnone (sound_setUp h what)
  | attachOther => exact h.attachOther
  | deliver r => exact hnone ((h.noted r).moved (moved_deliver r s))
  | recontext c => exact hnone (h.recontext c)
  | change op => exact hnone (h.moved (moved_onDisk _ _ s))

/-- What a history keeps. -/
theorem sound_afterAll (h : s.journal.Sound others made) (events : List Event) :
    (s.afterAll events).journal.Sound (others ++ s.othersOf events) made := by
  induction events generalizing s others with
  | nil =>
      rw [othersOf, List.append_nil]
      exact h
  | cons e rest ih =>
      rw [othersOf, ← List.append_assoc]
      exact ih (sound_after h e)

theorem sound_of_initial (t : FileTree) (terminal : Bool) (events : List Event) :
    ((initial t terminal).afterAll events).journal.Sound ((initial t terminal).othersOf events) [] :=
  sound_afterAll (s := initial t terminal) Journal.sound_initial events

theorem afterAll_append (s : Session) (earlier later : List Event) :
    s.afterAll (earlier ++ later) = (s.afterAll earlier).afterAll later := List.foldl_append

theorem othersOf_append (s : Session) (earlier later : List Event) :
    s.othersOf (earlier ++ later) = s.othersOf earlier ++ (s.afterAll earlier).othersOf later := by
  induction earlier generalizing s with
  | nil => rfl
  | cons e rest ih =>
      rw [List.cons_append, othersOf, othersOf, ih, List.append_assoc]
      rfl

/-- The outlets that the journal made at any time of a history are among those it has made by the end. -/
theorem sound_of_earlier (t : FileTree) (terminal : Bool) (earlier later : List Event) :
    ((initial t terminal).afterAll (earlier ++ later)).journal.Sound ((initial t terminal).othersOf (earlier ++ later))
      (((initial t terminal).afterAll earlier).journal.own.map (·.number)) := by
  rw [afterAll_append, othersOf_append]
  exact sound_afterAll (sound_of_initial t terminal earlier).remember later

/-- **Setups do not pile up.**  Whatever has happened before, setups that failed among it: after a setup that comes
through, the outlets that others have attached are there in their order, and behind them the journal's own ones,
which are those asked for and no more.  Each is there once, none that the journal made before is, and the threshold
is the one asked for. -/
theorem attached_of_setUp (t : FileTree) (terminal : Bool) (events : List Event) (what : Setup) {s' : Session}
    (h : (setUp what).run ((initial t terminal).afterAll events) = .ok () s') :
    s'.journal.attached = (initial t terminal).othersOf events ++ s'.journal.own
    ∧ s'.ownKinds = what.kinds ((initial t terminal).afterAll events).terminal
    ∧ (s'.journal.attached.map (·.number)).Nodup
    ∧ (∀ earlier later, events = earlier ++ later → ∀ o ∈ ((initial t terminal).afterAll earlier).journal.own,
        o.number ∉ s'.journal.attached.map (·.number))
    ∧ threshold what.level = .ok s'.journal.threshold := by
  have hways := setsUp what ((initial t terminal).afterAll events)
  rw [h] at hways
  cases hways with
  | done hlevel hopened hkinds hjournal =>
      rename_i level opened
      have hsound := sound_of_initial t terminal events
      have hattached : s'.journal.attached = (initial t terminal).othersOf events ++ s'.journal.own := by
        rw [hjournal]
        exact (hsound.attachOwn hopened).1
      have hown : s'.journal.own = opened.journal.own := by
        rw [hjournal]
        rfl
      refine ⟨hattached, ?_, ?_, ?_, ?_⟩
      · rw [← hkinds, ownKinds, ownKinds, hown]
      · rw [hattached, hown]
        exact hopened.once hsound
      · rintro earlier later rfl o ho hmem
        obtain ⟨hearlier, hnot⟩ := (sound_of_earlier t terminal earlier later).past o.number (List.mem_map_of_mem ho)
        rw [hattached, hown, List.map_append] at hmem
        rcases List.mem_append.mp hmem with hothers | hnew
        · exact hnot hothers
        · exact Nat.lt_irrefl _ (Nat.lt_of_lt_of_le hearlier (hopened.mem_own hnew).1)
      · rw [hlevel, hjournal]
        exact congrArg Except.ok hopened.threshold.symm

end Session

/-- A setup that fails at its file, between one that came through and one that does, and an outlet of somebody else:
the last one leaves that outlet, one to the console and one to its file. -/
theorem Session.attached_of_setUp_of_failing :
    let first : Setup := { Setup.standard with file := .text "f" }
    let failing : Setup := { Setup.standard with file := .text "f/g.log" }
    let what : Setup := { Setup.standard with level := .text "debug", file := .text "h" }
    let s : Session := initial ⟨[]⟩ false
    let events : List Event := [.setUp first, .attachOther, .setUp failing]
    fails ((setUp failing).run (s.afterAll [.setUp first, .attachOther])) = true
    ∧ ∃ s', (setUp what).run (s.afterAll events) = .ok () s'
      ∧ s'.journal.attached = s.othersOf events ++ s'.journal.own ∧ (s.othersOf events).map (·.number) = [2]
      ∧ s'.ownKinds = [.console false, .file none .human]
      ∧ threshold what.level = .ok s'.journal.threshold := by
  intro first failing what s events
  have hfailing : fails ((setUp failing).run (s.afterAll [.setUp first, .attachOther])) = true := by decide +kernel
  have hruns : fails ((setUp what).run (s.afterAll events)) = false := by decide +kernel
  have hterminal : (s.afterAll events).terminal = false := by decide +kernel
  have hothers : (s.othersOf events).map (·.number) = [2] := by decide +kernel
  obtain ⟨_, hrun⟩ := eq_ok_of_not_fails hruns
  obtain ⟨hattached, hkinds, -, -, hthreshold⟩ := attached_of_setUp ⟨[]⟩ false events what hrun
  rw [hterminal] at hkinds
  exact ⟨hfailing, _, hrun, hattached, hothers, hkinds, hthreshold⟩

/-! ### Failed setups

A setup that fails at its file has let go of the outlets before it, and the journal has none of
its own until a setup comes through again.  As far as the journal goes that is all that has
changed, next to the threshold.
-/

namespace Session

/-- A journal that has none of its own outlets attached lets go of nothing. -/
theorem attachedCount_eq_zero_iff (j : Journal) : j.attachedCount = 0 ↔ j.release.attached = j.attached := by
  unfold Journal.attachedCount Journal.release
  rw [List.length_eq_zero_iff, List.filter_eq_nil_iff, List.filter_eq_self]
  constructor
  · intro h o ho
    refine Journal.isKept_iff.mpr fun hmem => ?_
    obtain ⟨own, hown, hnumber⟩ := List.mem_map.mp hmem
    refine h own hown (List.contains_iff_mem.mpr ?_)
    rw [hnumber]
    exact List.mem_map_of_mem ho
  · intro h own hown hcontains
    obtain ⟨o, ho, hnumber⟩ := List.mem_map.mp (List.contains_iff_mem.mp hcontains)
    refine Journal.isKept_iff.mp (h o ho) ?_
    rw [hnumber]
    exact List.mem_map_of_mem hown

/-- **A setup that fails.**  Where the level is refused, nothing has changed.  Otherwise the journal has the new
threshold already and no outlet of its own any more, which is as before only where the threshold is the same and it
had none attached. -/
theorem journal_of_failed_setUp [DigitLimit] (t : FileTree) (terminal : Bool) (events : List Event) (what : Setup)
    {e : SetupError} {s' : Session} (h : (setUp what).run ((initial t terminal).afterAll events) = .error e s') :
    let s := (initial t terminal).afterAll events
    (∀ refusal, threshold what.level = .error refusal → s' = s)
    ∧ (∀ level, threshold what.level = .ok level → s'.journal.threshold = level
      ∧ s'.journal.attached = (initial t terminal).othersOf events)
    ∧ ((s'.journal.threshold = s.journal.threshold ∧ s'.journal.attached = s.journal.attached)
      ↔ ((∃ refusal, threshold what.level = .error refusal)
        ∨ (threshold what.level = .ok s.journal.threshold ∧ s.journal.attachedCount = 0))) := by
  intro s
  have hsound : s.journal.Sound ((initial t terminal).othersOf events) [] := sound_of_initial t terminal events
  have hways : SetsUp what s (.error e s') := h ▸ setsUp what s
  clear_value s
  cases hways with
  | refused hlevel =>
      refine ⟨fun _ _ => rfl, fun level hok => ?_, iff_of_true ⟨rfl, rfl⟩ (Or.inl ⟨_, hlevel⟩)⟩
      rw [hlevel] at hok
      cases hok
  | stuck hlevel hopened =>
      rename_i level
      have hthreshold : s'.journal.threshold = level := hopened.threshold
      have hattached := hopened.attached_eq hsound
      rw [hlevel, hthreshold, hattached, attachedCount_eq_zero_iff, hsound.released]
      refine ⟨fun refusal hrefused => (nomatch hrefused), fun level' hok => ?_, ?_⟩
      · injection hok with hsame
        exact ⟨hsame, rfl⟩
      · constructor
        · rintro ⟨hsame, hnone⟩
          exact Or.inr ⟨congrArg Except.ok hsame, hnone⟩
        · rintro (⟨refusal, hrefused⟩ | ⟨hsame, hnone⟩)
          · cases hrefused
          · injection hsame with hsame
            exact ⟨hsame, hnone⟩

/-- After a setup with a file, one whose file would be below that file: it fails, and neither the console nor the
file gets any record from then on. -/
theorem journal_of_failed_setUp_of_nested :
    let first : Setup := { Setup.standard with file := .text "f" }
    let what : Setup := { Setup.standard with level := .text "DEBUG", file := .text "f/g.log" }
    let s := (initial ⟨[]⟩ false).afterAll [.setUp first]
    ∃ e s', (setUp what).run s = .error e s' ∧ s.journal.threshold = 20 ∧ s.journal.attachedCount = 2
      ∧ s'.journal.threshold = 10 ∧ s'.journal.attached = [] := by
  intro first what s
  have hfails : fails ((setUp what).run s) = true := by decide +kernel
  obtain ⟨e, hrun⟩ := eq_error_of_fails hfails
  obtain ⟨-, htorn, -⟩ := journal_of_failed_setUp ⟨[]⟩ false [.setUp first] what hrun
  obtain ⟨hthreshold, hattached⟩ := htorn 10 rfl
  exact ⟨e, _, hrun, by decide +kernel, by decide +kernel, hthreshold, hattached⟩

end Session

end PartProgram
