/-
Files that are written all or nothing.

A write is a row of operations: the directories above the target are made, a file next to it is
made, filled and synchronised, and that file is moved over the target.  Any of them may fail,
for a reason that the tree knows or for one that it does not, such as a full disk; what begins
to fail may go on failing, so that not even the temporary file is removed.  So the write is
looked at on every device that does an operation as it should or does nothing, and at every
disk between the one before and the one after, which is where it may be stopped for good.

Moving over the target is the last operation of all.  Before it only the temporary file is
changed and directories are made, each where there was nothing before.  One of these can be at
the place of the target itself, when the path of the target leads back over a directory that is
missing: then the target turns from nothing into a directory, and nothing is moved over it.
Short of that, whoever looks at the target finds what was there before or all that is written.
-/
import PartProgram.Proofs.FileWork

namespace PartProgram

/-! ### Disks on the way

A disk remembers what was done to it, and an operation always does the same.  So of the disks
that come of one disk there is one for each list of operations, and a disk on the way to another
is the other or lies on the way to the one before it.  With that, what is claimed of every point
of a write is shown by induction on its operations.
-/

namespace Disk

variable {kind kind' : FileOp → Prop} {d d' d'' : Disk}

namespace Reaches

theorem length_done (h : d.Reaches kind d') : d.done.length ≤ d'.done.length := by
  obtain ⟨ops, hdone, -⟩ := h.new
  rw [hdone, List.length_append]
  omega

/-- What was done says which disk has come of it. -/
theorem eq_of_done (h : d.Reaches kind d') (h' : d.Reaches kind' d'') (hdone : d'.done = d''.done) : d' = d'' := by
  induction h generalizing d'' with
  | start =>
      cases h' with
      | start => rfl
      | done h' _ _ =>
          have hlength := h'.length_done
          rw [hdone, List.length_cons] at hlength
          omega
  | done h _ ht ih =>
      cases h' with
      | start =>
          have hlength := h.length_done
          rw [← hdone, List.length_cons] at hlength
          omega
      | done h' _ ht' =>
          obtain ⟨rfl, hrest⟩ := List.cons.inj hdone
          obtain rfl := ih h' hrest
          rw [Except.ok.inj (ht.symm.trans ht')]

end Reaches

/-- A disk that is reached is the first one or comes of the one before it. -/
theorem Reaches.eq_or_last (h : d.Reaches kind d') : d' = d ∨ ∃ (q : Disk) (op : FileOp) (t : FileTree),
    d.Reaches kind q ∧ kind op ∧ q.tree.apply op = .ok t ∧ d' = ⟨t, op :: q.done⟩ := by
  cases h with
  | start => exact Or.inl rfl
  | done h hop ht => exact Or.inr ⟨_, _, _, h, hop, ht, rfl⟩

/-- A disk that is there at some point on the way from one to another. -/
def Between (d d'' d' : Disk) : Prop := d.Reaches (fun _ => True) d'' ∧ d''.Reaches (fun _ => True) d'

/-- On the way to a disk that one operation has made of another, there are those on the way to the other and itself. -/
theorem Between.eq_or_before {op : FileOp} {t : FileTree} (h : d.Between d'' ⟨t, op :: d'.done⟩)
    (hreaches : d.Reaches kind d') : d'' = ⟨t, op :: d'.done⟩ ∨ d.Between d'' d' := by
  rcases h.2.eq_or_last with hlast | ⟨q, op', t', hq, -, -, hlast⟩
  · exact Or.inl hlast.symm
  · rw [Disk.mk.injEq, List.cons.injEq] at hlast
    obtain rfl := hreaches.eq_of_done (h.1.trans hq) hlast.2.2
    exact Or.inr ⟨h.1, hq⟩

/-- What is on the way to a disk that is made by operations of a kind is made by such operations. -/
theorem Reaches.of_between (h : d.Reaches kind d') (hbetween : d.Between d'' d') : d.Reaches kind d'' := by
  induction h with
  | start =>
      rcases hbetween.2.eq_or_last with hfirst | ⟨q, op, t, hq, -, -, hfirst⟩
      · exact hfirst ▸ .start
      · have hlength := Nat.le_trans hbetween.1.length_done hq.length_done
        rw [congrArg Disk.done hfirst, List.length_cons] at hlength
        omega
  | done h hop ht ih =>
      rcases hbetween.eq_or_before h with rfl | hbefore
      · exact .done h hop ht
      · exact ih hbefore

end Disk

/-! ### Entries

An operation changes the places that it names, and short of these it can only make a directory
where there was nothing.  Paths that lead back make it hard to say where these directories are
not, so `KeptAt` allows for one at any place that is spelled by a path above the target; for a
target that does not lead back none of these is its own place.
-/

namespace FileTree

/-- An operation that goes through leaves the other places alone, but for a directory that it makes where there was
nothing. -/
theorem entry?_apply {t t' : FileTree} {op : FileOp} (h : t.apply op = .ok t') {place : Place}
    (hplace : place ∉ op.places) : t'.entry? place = t.entry? place
      ∨ ∃ p, op = .makeDirectory p ∧ place = p.spelled ∧ t.entry? place = none ∧ t'.entry? place = some .directory := by
  cases op with
  | makeDirectory p =>
      obtain ⟨hentry, rfl⟩ := makeDirectory_eq_ok (mapError_eq_ok.mp h)
      by_cases hmade : place = p.spelled
      · subst hmade
        exact Or.inr ⟨p, rfl, rfl, hentry, by rw [entry?_put, if_pos rfl, ite_self]⟩
      · exact Or.inl (entry?_put_ne hmade _)
  | create p =>
      obtain ⟨-, -, rfl⟩ := write_eq_ok (mapError_eq_ok.mp h)
      exact Or.inl (entry?_put_ne (List.ne_of_not_mem_cons hplace) _)
  | open_ p =>
      obtain ⟨-, -, rfl⟩ := write_eq_ok (mapError_eq_ok.mp h)
      exact Or.inl (entry?_put_ne (List.ne_of_not_mem_cons hplace) _)
  | append p s =>
      obtain ⟨-, -, rfl⟩ := write_eq_ok (mapError_eq_ok.mp h)
      exact Or.inl (entry?_put_ne (List.ne_of_not_mem_cons hplace) _)
  | sync p =>
      obtain ⟨s, -, rfl⟩ := map_eq_ok.mp (mapError_eq_ok.mp h)
      exact Or.inl rfl
  | rename p q =>
      obtain ⟨s, -, -, -, rfl⟩ := rename_eq_ok (mapError_eq_ok.mp h)
      rw [FileOp.places, List.mem_cons, List.mem_singleton, not_or] at hplace
      split
      · exact Or.inl rfl
      · exact Or.inl ((entry?_put_ne hplace.2 _).trans (entry?_drop_ne hplace.1))
  | remove p =>
      obtain ⟨-, rfl⟩ := remove_eq_ok (mapError_eq_ok.mp h)
      exact Or.inl (entry?_drop_ne (List.ne_of_not_mem_cons hplace))

end FileTree

namespace AtomicWrite

variable {device : FileOp → FileWork Unit} {target : Path} {pieces : List String} {suffix : String} {d d' : Disk}

/-- At the place there is what was there, or a directory above the target that was made where there was nothing. -/
def KeptAt (target : Path) (t t' : FileTree) (place : Place) : Prop :=
  t'.entry? place = t.entry? place ∨ t.entry? place = none ∧ t'.entry? place = some .directory
    ∧ ∃ n, place = (Path.parent^[n] target.parent).spelled

theorem spelled_of_forward {p : Path} (h : ".." ∉ p.parts) : p.spelled = p.parts := by
  have hfold (here : Place) {names : List String} (h : ".." ∉ names) : names.foldl Path.step here = here ++ names := by
    induction names generalizing here with
    | nil => exact (List.append_nil here).symm
    | cons name rest ih =>
        rw [List.mem_cons, not_or] at h
        rw [List.foldl_cons, Path.step, if_neg (Ne.symm h.1), ih _ h.2, List.append_assoc, List.singleton_append]
  exact hfold [] h

theorem parts_parent (p : Path) : p.parent.parts <+: p.parts := by
  unfold Path.parent
  split
  · split
    · exact List.prefix_refl _
    · exact List.nil_prefix
  · exact List.dropLast_prefix _

theorem parts_iterate_parent (n : Nat) (p : Path) : (Path.parent^[n] p).parts <+: p.parts := by
  induction n generalizing p with
  | zero => exact List.prefix_refl _
  | succ n ih => exact (ih p.parent).trans (parts_parent p)

/-- A path with nothing to take from it is always there. -/
theorem isAlwaysThere_of_parent {p : Path} (h : p.parent.parts = p.parts) : FileTree.isAlwaysThere p.parts = true := by
  obtain ⟨parts⟩ := p
  match parts with
  | [] => rfl
  | [first] =>
      by_cases hroot : Path.isRoot first = true
      · simp [FileTree.isAlwaysThere, hroot]
      · simp [Path.parent, hroot] at h
  | first :: second :: rest =>
      have hlength := congrArg List.length h
      simp [Path.parent] at hlength

/-- A target whose path never leads back is none of the directories above it. -/
theorem KeptAt.eq_of_forward {t t' : FileTree} (hforward : ".." ∉ target.parts)
    (h : KeptAt target t t' target.spelled) : t'.entry? target.spelled = t.entry? target.spelled := by
  rcases h with hkept | ⟨hnone, -, n, hplace⟩
  · exact hkept
  · have hup := parts_iterate_parent n target.parent
    have habove : ".." ∉ (Path.parent^[n] target.parent).parts := fun hmem =>
      hforward ((parts_parent target).subset (hup.subset hmem))
    rw [spelled_of_forward hforward, spelled_of_forward habove] at hplace
    have hsame : target.parent.parts = target.parts :=
      (parts_parent target).eq_of_length (Nat.le_antisymm (parts_parent target).length_le (hplace ▸ hup.length_le))
    rw [spelled_of_forward hforward, FileTree.entry?, if_pos (isAlwaysThere_of_parent hsame)] at hnone
    cases hnone

/-- Nothing but the temporary file is changed before anything is moved over the target. -/
theorem keptAt_of_preparing (h : d.Reaches (Preparing target suffix) d') {place : Place}
    (hplace : place ∉ siblings target suffix) : KeptAt target d.tree d'.tree place := by
  induction h with
  | start => exact Or.inl rfl
  | done _ hop ht ih =>
      rcases FileTree.entry?_apply ht fun hmem => hplace (hop.1 hmem) with hsame | ⟨p, rfl, rfl, hnone, hmade⟩
      · unfold KeptAt
        rwa [hsame]
      · rcases ih with hkept | ⟨-, hdirectory, -⟩
        · obtain ⟨n, rfl⟩ := hop.2 p rfl
          exact Or.inr ⟨hkept ▸ hnone, hmade, n, rfl⟩
        · rw [hnone] at hdirectory
          cases hdirectory

/-- Moving the temporary file over the target leaves nothing behind and all other places alone. -/
theorem entry?_of_renamed {temp : Path} {t t' : FileTree} (hne : temp.spelled ≠ target.spelled)
    (h : t.apply (.rename temp target) = .ok t') : t'.entry? temp.spelled = none
      ∧ ∀ place, place ≠ target.spelled → place ≠ temp.spelled → t'.entry? place = t.entry? place := by
  refine ⟨?_, fun place htarget htemp => ?_⟩
  · obtain ⟨s, -, hs, -, rfl⟩ := FileTree.rename_eq_ok (mapError_eq_ok.mp h)
    have hfile : t.entry? temp.spelled ≠ some .directory := by simp [FileTree.entry_of_text hs]
    rw [if_neg hne, FileTree.entry?_put_ne hne, FileTree.entry?_drop, FileTree.not_always_of_entry hfile,
      if_neg Bool.false_ne_true, if_pos rfl]
  · have hplace : place ∉ (FileOp.rename temp target).places := by simp [FileOp.places, htarget, htemp]
    rcases FileTree.entry?_apply h hplace with hsame | ⟨p, hop, -⟩
    · exact hsame
    · cases hop

/-- Wherever a write is looked at, all is preparation so far or the write has come through. -/
theorem preparing_or_written (h : FileWork.Faithful device)
    (hbetween : d.Between d' (leaves ((writeOn device target pieces suffix).run d))) :
    d.Reaches (Preparing target suffix) d' ∨ (writeOn device target pieces suffix).run d = .ok () d' := by
  cases hrun : (writeOn device target pieces suffix).run d with
  | error e q =>
      rw [hrun] at hbetween
      exact Or.inl ((reaches_of_write_error h hrun).of_between hbetween)
  | ok _ q =>
      rw [hrun] at hbetween
      obtain ⟨temp, filled, t, -, hfilled, -, -, rfl⟩ := renamed_of_write h hrun
      rcases hbetween.eq_or_before hfilled with rfl | hbefore
      · exact Or.inr rfl
      · exact Or.inl (hfilled.of_between hbefore)

/-- A write that has come through leaves the other places as the preparation left them. -/
theorem keptAt_of_written (h : FileWork.Faithful device) (hsuffix : suffix ≠ "")
    (hrun : (writeOn device target pieces suffix).run d = .ok () d') {place : Place} (hne : place ≠ target.spelled)
    (hplace : place ∉ siblings target suffix) : KeptAt target d.tree d'.tree place := by
  obtain ⟨temp, filled, t, htemp, hfilled, -, ht, rfl⟩ := renamed_of_write h hrun
  have hsame := (entry?_of_renamed (temporary_ne_target hsuffix htemp) ht).2 place hne
    (by simpa [siblings_eq htemp] using hplace)
  have hkept := keptAt_of_preparing hfilled hplace
  unfold KeptAt at hkept ⊢
  rwa [hsame]

theorem closed_eq (s : String) : closed s = if s.toList.getLast? = some '\n' then s else s ++ "\n" := by
  have hends : s.endsWith "\n" = true ↔ s.toList.getLast? = some '\n' := by
    rw [← String.endsWith_toSlice, String.Slice.endsWith_string_iff, String.copy_toSlice, List.getLast?_eq_some_iff]
    exact ⟨fun ⟨before, h⟩ => ⟨before, h.symm⟩, fun ⟨before, h⟩ => ⟨before, h.symm⟩⟩
  rw [closed]
  exact if_congr hends rfl rfl

/-- **Writing is all or nothing.**  Whatever device it is done on, a write changes the target and its sibling, whose name
is that of the target with the suffix behind it, and makes directories above the target, and it does nothing else.  At
every point the target is what it was or all that is written, or it is one of the directories itself, which it never is
if its path does not lead back.  A write that comes through leaves no sibling and all that is written, which for a text
is the text with a line end behind it where there was none.  A write that fails leaves the target as it was, or one of
the directories. -/
theorem write_all_or_nothing (h : FileWork.Faithful device) (target : Path) (pieces : List String)
    (hsuffix : suffix ≠ "") (d : Disk) :
    (∀ temp, temporary target suffix = .ok temp → target.parts = target.parent.parts ++ [target.name]
      ∧ temp.parts = target.parent.parts ++ [target.name ++ suffix] ∧ temp.spelled ≠ target.spelled)
    ∧ (∀ d', d.Between d' (leaves ((writeOn device target pieces suffix).run d)) →
      (KeptAt target d.tree d'.tree target.spelled
        ∨ d'.tree.entry? target.spelled = some (.file (String.join pieces)))
      ∧ (".." ∉ target.parts → d'.tree.entry? target.spelled = d.tree.entry? target.spelled
        ∨ d'.tree.entry? target.spelled = some (.file (String.join pieces)))
      ∧ ∀ place, place ≠ target.spelled → place ∉ siblings target suffix → KeptAt target d.tree d'.tree place)
    ∧ (∀ d', (writeOn device target pieces suffix).run d = .ok () d' →
      d'.tree.content target = .ok (String.join pieces)
      ∧ ∃ temp, temporary target suffix = .ok temp ∧ d'.tree.entry? temp.spelled = none)
    ∧ (∀ e d', (writeOn device target pieces suffix).run d = .error e d' →
      KeptAt target d.tree d'.tree target.spelled)
    ∧ ∀ s d', (writeTextOn device target s).run d = .ok () d' →
      d'.tree.content target = .ok (if s.toList.getLast? = some '\n' then s else s ++ "\n") := by
  have htarget : target.spelled ∉ siblings target suffix := target_not_mem_siblings hsuffix
  refine ⟨fun temp htemp => ?_, fun d' hbetween => ?_, fun d' hrun => ?_, fun e d' hrun => ?_, fun s d' hrun => ?_⟩
  · obtain ⟨hparts, rfl, -⟩ := Path.withSuffix_eq_ok hsuffix htemp
    exact ⟨hparts, rfl, temporary_ne_target hsuffix htemp⟩
  · rcases preparing_or_written h hbetween with hprepared | hrun
    · have hkept := keptAt_of_preparing hprepared htarget
      exact ⟨Or.inl hkept, fun hforward => Or.inl (hkept.eq_of_forward hforward),
        fun place _ hplace => keptAt_of_preparing hprepared hplace⟩
    · have hall := FileTree.entry_of_text (text_of_write h hrun).2
      exact ⟨Or.inr hall, fun _ => Or.inr hall, fun place hne hplace => keptAt_of_written h hsuffix hrun hne hplace⟩
  · obtain ⟨hplace, htext⟩ := text_of_write h hrun
    obtain ⟨temp, filled, t, htemp, -, -, ht, rfl⟩ := renamed_of_write h hrun
    exact ⟨FileTree.content_of_text hplace htext, temp, htemp,
      (entry?_of_renamed (temporary_ne_target hsuffix htemp) ht).1⟩
  · exact keptAt_of_preparing (reaches_of_write_error h hrun) htarget
  · obtain ⟨hplace, htext⟩ := text_of_write h hrun
    rw [← closed_eq]
    simpa using FileTree.content_of_text hplace htext

/-- A write that cannot be synchronised: on a disk with an old file the file is kept, and the sibling is removed. -/
theorem write_all_or_nothing_of_fault :
    let device : FileOp → FileWork Unit := fun
      | .sync p => throw ⟨.busy, p, none⟩
      | op => FileWork.perform op
    let target : Path := .ofText "out/a.nc"
    let d : Disk := ⟨⟨[(["out"], .directory), (["out", "a.nc"], .file "old")]⟩, []⟩
    FileWork.Faithful device ∧ standardSuffix ≠ ""
    ∧ KeptAt target d.tree (leaves ((writeOn device target ["n", "ew"] standardSuffix).run d)).tree target.spelled
    ∧ (leaves ((writeOn device target ["n", "ew"] standardSuffix).run d)).tree.entries
      = [(["out"], .directory), (["out", "a.nc"], .file "old")] := by
  intro device target d
  have hdevice : FileWork.Faithful device := by
    intro op d
    cases op with
    | sync p => exact Or.inr ⟨_, rfl⟩
    | _ => exact Or.inl rfl
  have hsuffix : standardSuffix ≠ "" := by decide
  refine ⟨hdevice, hsuffix, ?_, by decide +kernel⟩
  obtain ⟨-, -, -, herror, -⟩ := write_all_or_nothing hdevice target ["n", "ew"] hsuffix d
  have hfails : fails ((writeOn device target ["n", "ew"] standardSuffix).run d) = true := by decide +kernel
  obtain ⟨e, hrun⟩ := eq_error_of_fails hfails
  exact herror e _ hrun

/-- A target that leads back over a directory that is missing: it was nothing and is the directory that was made, and
the write fails. -/
theorem target_made_directory :
    let target : Path := .ofText "a/../a"
    let d : Disk := ⟨⟨[]⟩, []⟩
    let after := leaves ((writeText target "x").run d)
    (∃ e, (writeText target "x").run d = .error e after) ∧ temporary target standardSuffix = .ok (.ofText "a/../a.tmp")
    ∧ d.tree.entry? target.spelled = none ∧ after.tree.entry? target.spelled = some .directory := by
  intro target d after
  have hfails : fails ((writeText target "x").run d) = true := by decide +kernel
  exact ⟨eq_error_of_fails hfails, by decide +kernel, by decide +kernel, by decide +kernel⟩

end AtomicWrite

end PartProgram
