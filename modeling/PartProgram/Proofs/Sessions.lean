/-
What a session leaves alone while it keeps its journal.

Keeping a journal is work on files too: setting it up makes directories and opens a file, and
every record is a line more.  None of this prints anything, and none of it is done at any place
but that of the journal's file.  So for places that this file is not at, the texts there are
what they were, however much is said; and the file stays off them, since nothing moves it but
moving what is at one of them.

The directories are another matter, because they may come to be at any place where there was
nothing.  They are made above the journal's file and nowhere else.
-/
import PartProgram.Command.Run
import PartProgram.Proofs.FileWork

namespace PartProgram

/-! ### Where the files of a journal are -/

/-- An operation that is done at none of the given places and moves nothing. -/
structure FileOp.Off (places : List Place) (op : FileOp) : Prop where
  away : ∀ place ∈ op.places, place ∉ places
  still : ∀ p q, op ≠ .rename p q

namespace Journal

variable {places : List Place} {j : Journal}

/-- An outlet that writes to no file at any of the given places. -/
def Spared (places : List Place) (kind : OutletKind) : Prop :=
  ∀ place form, kind = .file (some place) form → Path.Settled place ∧ place ∉ places

/-- The files of the journal are at none of the given places. -/
def Avoids (places : List Place) (j : Journal) : Prop := ∀ o ∈ j.attached ++ j.own, Spared places o.kind

theorem Avoids.mono {j' : Journal} (h : j.Avoids places) (hsub : j'.attached ++ j'.own ⊆ j.attached ++ j.own) :
    j'.Avoids places := fun o ho => h o (hsub ho)

theorem Avoids.of_subset {more : List Place} (h : j.Avoids more) (hsub : places ⊆ more) : j.Avoids places :=
  fun o ho place form hkind => ⟨(h o ho place form hkind).1, fun hmem => (h o ho place form hkind).2 (hsub hmem)⟩

theorem avoids_make (h : j.Avoids places) {kind : OutletKind} (hkind : Spared places kind) :
    (j.make kind).Avoids places := by
  intro o ho
  rcases List.mem_append.mp ho with hattached | hown
  · exact h o (List.mem_append_left _ hattached)
  · rcases List.mem_append.mp hown with hown | hnew
    · exact h o (List.mem_append_right _ hown)
    · rw [List.mem_singleton.mp hnew]
      exact hkind

theorem avoids_attachOwn (h : j.Avoids places) : j.attachOwn.Avoids places := by
  refine h.mono fun o ho => ?_
  rcases List.mem_append.mp ho with hattached | hown
  · exact hattached
  · exact List.mem_append_right _ hown

/-- A journal's file comes to one of the places only by being moved from one of them. -/
theorem spared_follow {t : FileTree} {op : FileOp} (hop : ∀ p q, op = .rename p q → p.spelled ∈ places)
    {place : Place} {form : Form} (h : Spared places (.file (some place) form)) :
    Spared places (.file (t.placeAfter op place) form) := by
  intro after form' hafter
  obtain ⟨hsettled, haway⟩ := h place form rfl
  injection hafter with hplace _
  rcases FileTree.eq_of_placeAfter hplace with rfl | ⟨p, q, hrename, hp⟩
  · exact ⟨hsettled, haway⟩
  · exact absurd (hp ▸ hop p q hrename) haway

theorem avoids_follow {t : FileTree} {op : FileOp} (hop : ∀ p q, op = .rename p q → p.spelled ∈ places)
    (h : j.Avoids places) : (j.follow t op).Avoids places := by
  intro o ho
  unfold follow at ho
  dsimp only at ho
  rw [← List.map_append] at ho
  obtain ⟨before, hbefore, rfl⟩ := List.mem_map.mp ho
  have hspared := h before hbefore
  split
  · rename_i place form hkind
    rw [hkind] at hspared
    exact spared_follow hop hspared
  · exact hspared

end Journal

/-! ### Sessions -/

/-- Nothing was printed, and the texts at the given places are what they were. -/
structure Session.Unchanged (places : List Place) (before s : Session) : Prop where
  printed : s.printed = before.printed
  text : ∀ place ∈ places, s.disk.tree.text? place = before.disk.tree.text? place
  directory : ∀ place, before.disk.tree.entry? place = some .directory → s.disk.tree.entry? place = some .directory

/-- Besides, the journal is kept at other places. -/
structure Session.Spares (places : List Place) (before s : Session) : Prop extends
    Session.Unchanged places before s where
  avoids : s.journal.Avoids places

namespace Session

variable {places : List Place} {before s : Session} {ε δ α : Type}

theorem Unchanged.refl (s : Session) (places : List Place) : Unchanged places s s :=
  ⟨rfl, fun _ _ => rfl, fun _ h => h⟩

theorem Unchanged.of_subset {more : List Place} (h : Unchanged more before s) (hsub : places ⊆ more) :
    Unchanged places before s := ⟨h.printed, fun place hplace => h.text place (hsub hplace), h.directory⟩

theorem Spares.of_subset {more : List Place} (h : Spares more before s) (hsub : places ⊆ more) :
    Spares places before s := ⟨h.toUnchanged.of_subset hsub, h.avoids.of_subset hsub⟩

theorem run_onDisk (wrap : δ → ε) (work : EStateM δ Disk α) (s : Session) :
    (onDisk wrap work).run s = match work.run s.disk with
      | .ok a d => .ok a (s.withDisk d)
      | .error e d => .error (wrap e) (s.withDisk d) := rfl

/-- The journal's files keep off places from which whatever is moved is moved. -/
theorem avoids_withDisk {kind : FileOp → Prop} (hkind : ∀ p q, kind (.rename p q) → p.spelled ∈ places) {d : Disk}
    (hd : s.disk.Reaches kind d) (h : s.journal.Avoids places) : (s.withDisk d).journal.Avoids places := by
  obtain ⟨ops, hdone, hops⟩ := hd.new
  have hnew : (d.done.take (d.done.length - s.disk.done.length)).reverse = ops.reverse := by
    rw [hdone, List.length_append, Nat.add_sub_cancel, List.take_left]
  show Journal.Avoids places (List.foldl _ s.journal _)
  rw [hnew]
  refine List.foldlRecOn ops.reverse _ h fun j hj op hop => Journal.avoids_follow ?_ hj
  rintro p q rfl
  exact hkind p q (hops _ (List.mem_reverse.mp hop))

/-- Work that is done elsewhere spares the places. -/
theorem spares_withDisk {d : Disk} (hd : s.disk.Reaches (FileOp.Off places) d) (h : Spares places before s) :
    Spares places before (s.withDisk d) where
  printed := h.printed
  text place hplace := by
    have hsame : (s.withDisk d).disk.tree.text? place = s.disk.tree.text? place :=
      hd.text fun op hoff hmem => hoff.away place hmem hplace
    exact hsame.trans (h.text place hplace)
  directory place hdir := hd.directory (h.directory place hdir)
  avoids := avoids_withDisk (fun p q hoff => absurd rfl (hoff.still p q)) hd h.avoids

theorem keeps_onDisk {wrap : δ → ε} {work : EStateM δ Disk α}
    (hwork : ∀ d : Disk, Keeps (d.Reaches (FileOp.Off places)) work) : Keeps (Spares places before) (onDisk wrap work) := by
  intro s h
  have hleft := hwork s.disk s.disk .start
  rw [run_onDisk]
  cases hrun : work.run s.disk with
  | ok a d =>
      rw [hrun] at hleft
      exact spares_withDisk hleft h
  | error e d =>
      rw [hrun] at hleft
      exact spares_withDisk hleft h

theorem keeps_onJournal {f : Journal → Journal} (hf : ∀ j : Journal, j.Avoids places → (f j).Avoids places) :
    Keeps (Spares places before) (onJournal f : EStateM ε Session Unit) :=
  fun s h => ⟨⟨h.printed, h.text, h.directory⟩, hf s.journal h.avoids⟩

/-! ### Saying things

Whatever is said comes to the outlets one by one, and to a file it comes as a line.  The
directories that were made along the way are kept account of by the operations that were done.
-/

theorem off_append {place : Place} (hsettled : Path.Settled place) (haway : place ∉ places) (line : String) :
    FileOp.Off places (.append ⟨place⟩ line) where
  away there hthere := by
    rw [List.mem_singleton.mp hthere, hsettled]
    exact haway
  still p q h := by cases h

theorem spares_appendLine (h : Spares places before s) {place : Option Place} {form : Form}
    (hspared : Journal.Spared places (.file place form)) (line : String) :
    Spares places before (s.appendLine line place) := by
  cases place with
  | none => exact h
  | some place =>
      obtain ⟨hsettled, haway⟩ := hspared place form rfl
      have hleft := FileWork.keeps_perform (off_append hsettled haway (line ++ "\n")) s.disk .start
      unfold appendLine
      dsimp only
      cases hrun : (FileWork.perform (.append ⟨place⟩ (line ++ "\n"))).run s.disk with
      | ok _ d =>
          rw [hrun] at hleft
          exact spares_withDisk hleft h
      | error _ d =>
          rw [hrun] at hleft
          exact spares_withDisk hleft h

/-- Between two sessions no directory was made but at places of a kind. -/
def Makes (above : Place → Prop) (before s : Session) : Prop :=
  before.disk.Reaches (fun op => ∀ p, op = .makeDirectory p → above p.spelled) s.disk

section Makes

variable {above : Place → Prop}

/-- What is a directory was one before, or it is at a place of the kind. -/
theorem Makes.directory (h : Makes above before s) {place : Place} (hdir : s.disk.tree.entry? place = some .directory) :
    before.disk.tree.entry? place = some .directory ∨ above place := by
  rcases h.made hdir with hbefore | ⟨p, hmade, rfl⟩
  · exact Or.inl hbefore
  · exact Or.inr (hmade p rfl)

theorem keeps_makes_onDisk {wrap : δ → ε} {work : EStateM δ Disk α}
    (hwork : ∀ d : Disk, Keeps (d.Reaches fun op => ∀ p, op = .makeDirectory p → above p.spelled) work) :
    Keeps (Makes above before) (onDisk wrap work) := by
  intro s h
  have hleft := hwork s.disk s.disk .start
  rw [run_onDisk]
  cases hrun : work.run s.disk with
  | ok a d =>
      rw [hrun] at hleft
      exact h.trans hleft
  | error e d =>
      rw [hrun] at hleft
      exact h.trans hleft

theorem makes_appendLine (h : Makes above before s) (line : String) (place : Option Place) :
    Makes above before (s.appendLine line place) := by
  cases place with
  | none => exact h
  | some place =>
      have hleft : s.disk.Reaches (fun op => ∀ p, op = .makeDirectory p → above p.spelled)
          (leaves ((FileWork.perform (.append ⟨place⟩ (line ++ "\n"))).run s.disk)) :=
        FileWork.keeps_perform (by simp) s.disk .start
      unfold appendLine
      dsimp only
      cases hrun : (FileWork.perform (.append ⟨place⟩ (line ++ "\n"))).run s.disk with
      | ok _ d =>
          rw [hrun] at hleft
          exact h.trans hleft
      | error _ d =>
          rw [hrun] at hleft
          exact h.trans hleft

end Makes

section

variable [DigitLimit]

theorem spares_write (h : Spares places before s) {o : Outlet} (ho : Journal.Spared places o.kind) (r : Record) :
    Spares places before (write r s o) := by
  unfold write
  cases hkind : o.kind with
  | console colour =>
      dsimp only
      split
      · exact ⟨⟨h.printed, h.text, h.directory⟩, h.avoids⟩
      · exact h
  | file place form =>
      rw [hkind] at ho
      dsimp only
      split
      · exact spares_appendLine h ho _
      · exact h
  | other => exact h

theorem spares_showPlain (h : Spares places before s) (r : Record) : Spares places before (s.showPlain r) := by
  unfold showPlain
  split
  · exact h
  · split
    · exact ⟨⟨h.printed, h.text, h.directory⟩, h.avoids⟩
    · exact h

theorem spares_deliver (h : Spares places before s) (r : Record) : Spares places before (s.deliver r) := by
  unfold deliver
  by_cases htakes : s.journal.takes r.level = true
  · have htaken : Spares places before { s with journal := s.journal.take r } :=
      ⟨⟨h.printed, h.text, h.directory⟩, h.avoids⟩
    rw [if_pos htakes]
    dsimp only
    split
    · exact spares_showPlain htaken r
    · refine List.foldlRecOn _ _ htaken fun s' hs' o ho => spares_write hs' ?_ r
      exact h.avoids o (List.mem_append_left _ ho)
  · rw [if_neg htakes]
    exact h

/-- The session after notes are put into the journal. -/
def said (now : Instant) (notes : List Note) (s : Session) : Session :=
  notes.foldl (fun s n => s.deliver (.ofNote now n)) s

theorem spares_said (h : Spares places before s) (now : Instant) (notes : List Note) :
    Spares places before (s.said now notes) :=
  List.foldlRecOn notes _ h fun _ hs n _ => spares_deliver hs (.ofNote now n)

/-- No record makes a directory. -/
theorem makes_deliver {above : Place → Prop} (h : Makes above before s) (r : Record) :
    Makes above before (s.deliver r) := by
  have hwrite {s : Session} (h : Makes above before s) (o : Outlet) : Makes above before (write r s o) := by
    unfold write
    split
    · split
      · exact h
      · exact h
    · split
      · exact makes_appendLine h _ _
      · exact h
    · exact h
  unfold deliver
  split
  · dsimp only
    split
    · unfold showPlain
      split
      · exact h
      · split
        · exact h
        · exact h
    · exact List.foldlRecOn (motive := fun s' : Session => Makes above before s') _ _ h fun s' hs' o _ => hwrite hs' o
  · exact h

end

/-! ### Setting the journal up

The file is asked for before anything is attached, so a setup that fails has done no more than
to make the directories above the file.
-/

open Journal (Spared avoids_make avoids_attachOwn)

theorem keeps_openFile {file : Value} {form : Form}
    (hfile : ∀ path, Path.ofValue? file = .ok path → path.spelled ∉ places) :
    Keeps (Spares places before) (openFile file form) := by
  unfold openFile
  cases hpath : Path.ofValue? file with
  | error e => exact .throw _
  | ok path =>
      refine (keeps_onDisk fun d => FileWork.keeps_ensureDirectory (fun p => ?_) path.parent).bind fun _ => ?_
      · exact ⟨by simp [FileOp.places], by simp⟩
      · refine (keeps_onDisk fun d => FileWork.keeps_perform ?_).bind fun _ => Keeps.get.bind fun _ => .pure _
        exact ⟨by simpa [FileOp.places] using hfile path hpath, by simp⟩

theorem spared_of_openFile {file : Value} {form : Form} {kind : OutletKind} {s' : Session}
    (hfile : ∀ path, Path.ofValue? file = .ok path → path.spelled ∉ places)
    (h : (openFile file form).run s = .ok kind s') : Spared places kind := by
  unfold openFile at h
  cases hpath : Path.ofValue? file with
  | error e =>
      rw [hpath] at h
      cases h
  | ok path =>
      rw [hpath] at h
      obtain ⟨_, made, -, h⟩ := run_bind_eq_ok.mp h
      obtain ⟨_, opened, -, h⟩ := run_bind_eq_ok.mp h
      cases h
      intro place form' hkind
      injection hkind with hplace _
      have hspelled : place = path.spelled := FileTree.spelled_of_place (eq_ok_of_toOption hplace)
      rw [hspelled]
      exact ⟨Path.settled_spelled path, hfile path hpath⟩

/-- Makes the outlet to the console, where one is asked for. -/
def openConsole (what : Setup) : EStateM SetupError Session Unit :=
  if what.console then do onJournal (Journal.make (.console (what.colour && (← get).terminal))) else pure ()

/-- Makes the outlet to the file, where one is asked for. -/
def openLog (what : Setup) : EStateM SetupError Session Unit :=
  if what.file.isTrue then do onJournal (Journal.make (← openFile what.file what.form)) else pure ()

theorem setUp_eq {what : Setup} {level : Int} (h : threshold what.level = .ok level) :
    setUp what = (do
      onJournal fun j => { j.release with threshold := level }
      openConsole what
      openLog what
      onJournal Journal.attachOwn
      onJournal (Journal.push what.context)) := by
  unfold setUp openConsole openLog
  rw [h]
  cases what.console with
  | true => cases what.file.isTrue <;> simp only [Bool.false_eq_true, if_true, if_false, bind_assoc, pure_bind]
  | false => cases what.file.isTrue <;> simp only [Bool.false_eq_true, if_true, if_false, bind_assoc, pure_bind]

theorem setUp_eq_throw {what : Setup} {e : SetupError} (h : threshold what.level = .error e) :
    setUp what = throw e := by
  unfold setUp
  rw [h]

theorem keeps_openConsole (what : Setup) : Keeps (Spares places before) (openConsole what) := by
  unfold openConsole
  split
  · refine Keeps.get.bind fun now => keeps_onJournal fun j hj => avoids_make hj ?_
    intro place form hkind
    cases hkind
  · exact .pure ()

theorem keeps_openLog {what : Setup}
    (hfile : what.file.isTrue = true → ∀ path, Path.ofValue? what.file = .ok path → path.spelled ∉ places) :
    Keeps (Spares places before) (openLog what) := by
  unfold openLog
  split
  · rename_i htrue
    refine (keeps_openFile (hfile htrue)).andThen fun hopen h => ?_
    exact keeps_onJournal (fun j hj => avoids_make hj (spared_of_openFile (hfile htrue) hopen)) _ h
  · exact .pure ()

/-- Setting the journal up prints nothing and leaves the places alone; where it comes through, the
journal's file is at none of them. -/
theorem spares_setUp {what : Setup} (hs : s.journal.release.Avoids places)
    (hfile : what.file.isTrue = true → ∀ path, Path.ofValue? what.file = .ok path → path.spelled ∉ places) :
    Unchanged places s (leaves ((setUp what).run s)) ∧ ∀ s', (setUp what).run s = .ok () s' → Spares places s s' := by
  cases hlevel : threshold what.level with
  | error e =>
      rw [setUp_eq_throw hlevel]
      refine ⟨.refl s places, fun s' h => ?_⟩
      cases h
  | ok level =>
      have hreleased : Spares places s { s with journal := { s.journal.release with threshold := level } } :=
        ⟨⟨rfl, fun _ _ => rfl, fun _ h => h⟩, hs⟩
      have hleft : Spares places s (leaves ((setUp what).run s)) := by
        rw [setUp_eq hlevel]
        refine ((keeps_openConsole what).bind fun _ => (keeps_openLog hfile).bind fun _ =>
          (keeps_onJournal fun j hj => avoids_attachOwn hj).bind fun _ => keeps_onJournal fun j hj => ?_) _ hreleased
        exact hj
      refine ⟨hleft.toUnchanged, fun s' h => ?_⟩
      rw [h] at hleft
      exact hleft

/-- The only directories that setting the journal up makes are those above its file. -/
theorem makes_setUp {above : Place → Prop} {what : Setup} (hfile : what.file.isTrue = true →
    ∀ path, Path.ofValue? what.file = .ok path → ∀ n, above (Path.parent^[n] path.parent).spelled) :
    Makes above s (leaves ((setUp what).run s)) := by
  have hjournal {f : Journal → Journal} : Keeps (Makes above s) (onJournal f : EStateM SetupError Session Unit) :=
    fun _ h => h
  cases hlevel : threshold what.level with
  | error e =>
      rw [setUp_eq_throw hlevel]
      exact .start
  | ok level =>
      rw [setUp_eq hlevel]
      have hconsole : Keeps (Makes above s) (openConsole what) := by
        unfold openConsole
        split
        · exact Keeps.get.bind fun _ => hjournal
        · exact .pure ()
      have hlog : Keeps (Makes above s) (openLog what) := by
        unfold openLog
        split
        · rename_i htrue
          refine Keeps.bind ?_ fun _ => hjournal
          unfold openFile
          cases hpath : Path.ofValue? what.file with
          | error e => exact .throw _
          | ok path =>
              refine (keeps_makes_onDisk fun d => ?_).bind fun _ => (keeps_makes_onDisk fun d => ?_).bind fun _ =>
                Keeps.get.bind fun _ => .pure _
              · refine FileWork.faithful_perform.keeps_ensureDirectory fun n p hp => ?_
                injection hp with hp
                rw [← hp]
                exact hfile htrue path hpath n
              · exact FileWork.keeps_perform (by simp)
        · exact .pure ()
      refine (hjournal.bind fun _ => hconsole.bind fun _ => hlog.bind fun _ => hjournal.bind fun _ => hjournal) s ?_
      exact .start

end Session

end PartProgram
