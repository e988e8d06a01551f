/-
What work on files does, whether or not it comes through.

Work may fail half way, and what it has done by then stays done.  So its effects are stated of
the disk that it leaves in either case: that disk is reached by operations of a certain kind,
each of which went through.  Whatever operations of this kind leave alone the work leaves
alone, however far it got.

A file that is written as a whole is filled next to its target and moved over it at the very
end.  Up to that point nothing is done at the target, and behind it nothing is left to fail:
the target has its old content or all of the new one.
-/
import Mathlib.Logic.Function.Iterate
import PartProgram.Files.AtomicWrite
import PartProgram.Proofs.Places

namespace PartProgram

/-! ### Actions that keep an invariant

An action is judged by the state that it leaves, whether or not it comes through, since files
that were changed stay changed.  `Keeps` passes from the parts of an action to the whole,
handlers of failures included, so an invariant has to be shown for single operations only.
-/

/-- The state that an action leaves, also where it fails. -/
def leaves {ε σ α : Type} : EStateM.Result ε σ α → σ
  | .ok _ s => s
  | .error _ s => s

/-- Whether an action fails. -/
def fails {ε σ α : Type} : EStateM.Result ε σ α → Bool
  | .ok _ _ => false
  | .error _ _ => true

theorem eq_error_of_fails {ε σ α : Type} {r : EStateM.Result ε σ α} (h : fails r = true) :
    ∃ e, r = .error e (leaves r) := by
  cases r with
  | ok a s => cases h
  | error e s => exact ⟨e, rfl⟩

theorem eq_ok_of_not_fails {ε σ α : Type} {r : EStateM.Result ε σ α} (h : fails r = false) :
    ∃ a, r = .ok a (leaves r) := by
  cases r with
  | ok a s => exact ⟨a, rfl⟩
  | error e s => cases h

theorem run_tryCatch {ε σ α : Type} (x : EStateM ε σ α) (f : ε → EStateM ε σ α) (s : σ) :
    (tryCatch x f).run s = match x.run s with
      | .ok a q => .ok a q
      | .error e q => (f e).run q := by
  show EStateM.tryCatch x f s = _
  unfold EStateM.tryCatch EStateM.run
  cases x s with
  | ok a q => rfl
  | error e q => rfl

/-- An action in two stages comes through when both of them do. -/
theorem run_bind_eq_ok {ε σ α β : Type} {x : EStateM ε σ α} {f : α → EStateM ε σ β} {s s' : σ} {b : β} :
    (x >>= f).run s = .ok b s' ↔ ∃ a q, x.run s = .ok a q ∧ (f a).run q = .ok b s' := by
  rw [EStateM.run_bind]
  cases x.run s with
  | error e q => simp
  | ok a q => simp

theorem run_adaptExcept_eq_ok {ε ε' σ α : Type} {g : ε → ε'} {x : EStateM ε σ α} {s s' : σ} {a : α} :
    (x.adaptExcept g).run s = .ok a s' ↔ x.run s = .ok a s' := by
  rw [EStateM.run_adaptExcept]
  cases x.run s with
  | error e q => simp
  | ok a q => simp

/-- An action that keeps an invariant of the state, whether or not it comes through. -/
def Keeps {ε σ α : Type} (I : σ → Prop) (x : EStateM ε σ α) : Prop := ∀ s, I s → I (leaves (x.run s))

namespace Keeps

variable {ε ε' σ α β : Type} {I : σ → Prop}

theorem ok {x : EStateM ε σ α} (h : Keeps I x) {s s' : σ} {a : α} (hs : I s) (hrun : x.run s = .ok a s') : I s' := by
  have hleft := h s hs
  rwa [hrun] at hleft

theorem error {x : EStateM ε σ α} (h : Keeps I x) {s s' : σ} {e : ε} (hs : I s) (hrun : x.run s = .error e s') :
    I s' := by
  have hleft := h s hs
  rwa [hrun] at hleft

theorem pure (a : α) : Keeps I (Pure.pure a : EStateM ε σ α) := fun _ hs => hs

theorem throw (e : ε) : Keeps I (MonadExcept.throw e : EStateM ε σ α) := fun _ hs => hs

theorem get : Keeps I (MonadState.get : EStateM ε σ σ) := fun _ hs => hs

/-- An action in two stages, the second of which is looked at where the first has come through. -/
theorem andThen {x : EStateM ε σ α} {f : α → EStateM ε σ β} (hx : Keeps I x)
    (hf : ∀ {s s' : σ} {a : α}, x.run s = .ok a s' → I s' → I (leaves ((f a).run s'))) : Keeps I (x >>= f) := by
  intro s hs
  rw [EStateM.run_bind]
  cases hrun : x.run s with
  | ok a q => exact hf hrun (hx.ok hs hrun)
  | error e q => exact hx.error hs hrun

theorem bind {x : EStateM ε σ α} {f : α → EStateM ε σ β} (hx : Keeps I x) (hf : ∀ a, Keeps I (f a)) :
    Keeps I (x >>= f) := hx.andThen fun {_ s' a} _ hs => hf a s' hs

theorem tryCatch {x : EStateM ε σ α} {f : ε → EStateM ε σ α} (hx : Keeps I x) (hf : ∀ e, Keeps I (f e)) :
    Keeps I (MonadExcept.tryCatch x f) := by
  intro s hs
  rw [show (MonadExcept.tryCatch x f).run s = _ from run_tryCatch x f s]
  cases hrun : x.run s with
  | ok a q => exact hx.ok hs hrun
  | error e q => exact hf e q (hx.error hs hrun)

theorem adaptExcept {x : EStateM ε σ α} (hx : Keeps I x) (f : ε → ε') : Keeps I (x.adaptExcept f) := by
  intro s hs
  rw [EStateM.run_adaptExcept]
  cases hrun : x.run s with
  | ok a q => exact hx.ok hs hrun
  | error e q => exact hx.error hs hrun

theorem forM {f : β → EStateM ε σ Unit} (hf : ∀ b, Keeps I (f b)) (l : List β) : Keeps I (l.forM f) := by
  induction l with
  | nil => exact pure ()
  | cons b rest ih => exact bind (hf b) fun _ => ih

end Keeps

/-! ### Operations of a kind

What can be said of a disk after some work depends on the operations that were done and not on
the work.  `Reaches` forgets the work and keeps the kind of its operations; a place that no
operation of the kind is done at is as it was.  Devices that fail whenever they like are covered
by the same lemmas, because an operation that fails does nothing.
-/

/-- The disks that operations of a kind make of a disk. -/
inductive Disk.Reaches (kind : FileOp → Prop) (d : Disk) : Disk → Prop where
  | start : Reaches kind d d
  | done {d' : Disk} {op : FileOp} {t : FileTree} (h : Reaches kind d d') (hop : kind op)
      (ht : d'.tree.apply op = .ok t) : Reaches kind d ⟨t, op :: d'.done⟩

namespace Disk.Reaches

variable {kind more : FileOp → Prop} {d d' d'' : Disk}

theorem trans (h : d.Reaches kind d') (h' : d'.Reaches kind d'') : d.Reaches kind d'' := by
  induction h' with
  | start => exact h
  | done _ hop ht ih => exact .done ih hop ht

theorem mono (h : d.Reaches kind d') (hmore : ∀ op, kind op → more op) : d.Reaches more d' := by
  induction h with
  | start => exact .start
  | done _ hop ht ih => exact .done ih (hmore _ hop) ht

/-- What no operation of the kind is done at has the text that it had. -/
theorem text (h : d.Reaches kind d') {place : Place} (hkind : ∀ op, kind op → place ∉ op.places) :
    d'.tree.text? place = d.tree.text? place := by
  induction h with
  | start => rfl
  | done _ hop ht ih => exact ((FileTree.changesOnly_apply ht).text place (hkind _ hop)).trans ih

theorem directory (h : d.Reaches kind d') {place : Place} (hdir : d.tree.entry? place = some .directory) :
    FileTree.entry? d'.tree place = some .directory := by
  induction h with
  | start => exact hdir
  | done _ _ ht ih => exact (FileTree.changesOnly_apply ht).directory place ih

/-- A directory was there all along, or it was made by an operation of the kind. -/
theorem made (h : d.Reaches kind d') {place : Place} (hdir : FileTree.entry? d'.tree place = some .directory) :
    d.tree.entry? place = some .directory ∨ ∃ p, kind (.makeDirectory p) ∧ place = p.spelled := by
  induction h with
  | start => exact Or.inl hdir
  | done _ hop ht ih =>
      rcases FileTree.directory_of_apply ht hdir with hbefore | ⟨p, rfl, hplace⟩
      · exact ih hbefore
      · exact Or.inr ⟨p, hop, hplace⟩

/-- The operations that are new are of the kind. -/
theorem new (h : d.Reaches kind d') : ∃ ops, d'.done = ops ++ d.done ∧ ∀ op ∈ ops, kind op := by
  induction h with
  | start => exact ⟨[], rfl, by simp⟩
  | done _ hop _ ih =>
      obtain ⟨ops, hdone, hops⟩ := ih
      exact ⟨_ :: ops, congrArg _ hdone, List.forall_mem_cons.mpr ⟨hop, hops⟩⟩

end Disk.Reaches

namespace FileWork

variable {kind : FileOp → Prop} {d : Disk}

theorem run_perform (op : FileOp) (d : Disk) :
    (perform op).run d = match d.tree.apply op with
      | .ok t => .ok () ⟨t, op :: d.done⟩
      | .error e => .error e d := by
  rw [perform, EStateM.run_bind, EStateM.run_get]
  dsimp only
  cases d.tree.apply op with
  | ok t => rfl
  | error e => rfl

theorem run_perform_eq_ok {op : FileOp} {d d' : Disk} (h : (perform op).run d = .ok () d') :
    ∃ t, d.tree.apply op = .ok t ∧ d' = ⟨t, op :: d.done⟩ := by
  rw [run_perform] at h
  cases hop : d.tree.apply op with
  | error e =>
      rw [hop] at h
      cases h
  | ok t =>
      rw [hop] at h
      exact ⟨t, rfl, (EStateM.Result.ok.inj h).2.symm⟩

theorem run_perform_eq_error {op : FileOp} {d d' : Disk} {e : FileError} (h : (perform op).run d = .error e d') :
    d' = d := by
  rw [run_perform] at h
  cases hop : d.tree.apply op with
  | error e =>
      rw [hop] at h
      exact (EStateM.Result.error.inj h).2.symm
  | ok t =>
      rw [hop] at h
      cases h

theorem keeps_perform {op : FileOp} (hop : kind op) : Keeps (d.Reaches kind) (perform op) := by
  intro d' hd
  rw [run_perform]
  cases ht : d'.tree.apply op with
  | ok t => exact .done hd hop ht
  | error e => exact hd

/-- A device that does each operation as it is done on the tree, or fails and does nothing. -/
def Faithful (device : FileOp → FileWork Unit) : Prop :=
  ∀ op d, (device op).run d = (perform op).run d ∨ ∃ e, (device op).run d = .error e d

theorem faithful_perform : Faithful perform := fun _ _ => Or.inl rfl

namespace Faithful

variable {device : FileOp → FileWork Unit} (h : Faithful device)

include h

theorem run_eq_ok {op : FileOp} {d d' : Disk} (hrun : (device op).run d = .ok () d') :
    ∃ t, d.tree.apply op = .ok t ∧ d' = ⟨t, op :: d.done⟩ := by
  rcases h op d with hdone | ⟨e, hfailed⟩
  · exact run_perform_eq_ok (hdone.symm.trans hrun)
  · cases hfailed.symm.trans hrun

theorem run_eq_error {op : FileOp} {d d' : Disk} {e : FileError} (hrun : (device op).run d = .error e d') :
    d' = d := by
  rcases h op d with hdone | ⟨e', hfailed⟩
  · exact run_perform_eq_error (hdone.symm.trans hrun)
  · exact (EStateM.Result.error.inj (hrun.symm.trans hfailed)).2

theorem keeps {op : FileOp} (hop : kind op) : Keeps (d.Reaches kind) (device op) := by
  intro d' hd
  rcases h op d' with hdone | ⟨e, hfailed⟩
  · rw [hdone]
    exact keeps_perform hop d' hd
  · rw [hfailed]
    exact hd

theorem keeps_ensureOne {p : Path} (hop : kind (.makeDirectory p)) : Keeps (d.Reaches kind) (ensureOne device p) := by
  refine (h.keeps hop).tryCatch fun e => Keeps.get.bind fun now => ?_
  split
  · exact .throw e
  · exact .pure ()

/-- Directories are made at a path and at those that are above it. -/
theorem keeps_ensureLevels {p : Path} (hop : ∀ n, kind (.makeDirectory (Path.parent^[n] p))) (levels : Nat) :
    Keeps (d.Reaches kind) (ensureLevels device levels p) := by
  induction levels generalizing p with
  | zero => exact h.keeps_ensureOne (hop 0)
  | succ levels ih =>
      refine (h.keeps_ensureOne (hop 0)).tryCatch fun e => ?_
      split
      · exact (ih fun n => hop (n + 1)).bind fun _ => h.keeps_ensureOne (hop 0)
      · exact .throw e

theorem keeps_ensureDirectory {p : Path} (hop : ∀ n, kind (.makeDirectory (Path.parent^[n] p))) :
    Keeps (d.Reaches kind) (ensureDirectoryOn device p) := h.keeps_ensureLevels hop _

end Faithful

theorem keeps_ensureDirectory (hop : ∀ p, kind (.makeDirectory p)) (p : Path) :
    Keeps (d.Reaches kind) (ensureDirectory p) := faithful_perform.keeps_ensureDirectory fun _ => hop _

end FileWork

/-! ### Files that are written as a whole

The write is cut where the temporary file is complete.  Before that only this file and the
directories above the target are touched, and a failure there is followed by an attempt to
remove the file, which may fail as well.  Behind the cut there is one operation.
-/

namespace AtomicWrite

variable {device : FileOp → FileWork Unit} {temp target : Path} {pieces : List String} {suffix : String} {d d' : Disk}

/-- Fills the temporary file. -/
def fill (device : FileOp → FileWork Unit) (temp : Path) (pieces : List String) : FileWork Unit := do
  device (.create temp)
  pieces.forM fun s => device (.append temp s)
  device (.sync temp)

theorem replace_eq (device : FileOp → FileWork Unit) (temp target : Path) (pieces : List String) :
    replace device temp target pieces = (do
      fill device temp pieces
      device (.rename temp target)) := by
  simp only [replace, fill, bind_assoc]

/-- Operations on the temporary file, none of which makes a directory. -/
def OnTemporary (temp : Path) (op : FileOp) : Prop := op.places ⊆ [temp.spelled] ∧ ∀ p, op ≠ .makeDirectory p

theorem keeps_fill (h : FileWork.Faithful device) (temp : Path) (pieces : List String) :
    Keeps (d.Reaches (OnTemporary temp)) (fill device temp pieces) := by
  refine (h.keeps ⟨List.Subset.refl _, by simp⟩).bind fun _ => ?_
  refine (Keeps.forM (fun s => h.keeps ⟨List.Subset.refl _, by simp⟩) pieces).bind fun _ => ?_
  exact h.keeps ⟨List.nil_subset _, by simp⟩

theorem keeps_cleanUp (h : FileWork.Faithful device) (temp : Path) :
    Keeps (d.Reaches (OnTemporary temp)) (cleanUp device temp) := by
  refine Keeps.get.bind fun now => ?_
  split
  · exact h.keeps ⟨List.Subset.refl _, by simp⟩
  · exact .pure ()
  · exact .throw _

/-- Appending piece by piece appends them all. -/
theorem text_of_appends (h : FileWork.Faithful device) {old : String} (hold : d.tree.text? temp.spelled = some old)
    (hrun : (pieces.forM fun s => device (.append temp s)).run d = .ok () d') :
    d'.tree.text? temp.spelled = some (pieces.foldl (· ++ ·) old) := by
  induction pieces generalizing d old with
  | nil =>
      cases hrun
      exact hold
  | cons s rest ih =>
      rw [List.forM, run_bind_eq_ok] at hrun
      obtain ⟨_, q, happend, hrest⟩ := hrun
      obtain ⟨t, ht, rfl⟩ := h.run_eq_ok happend
      obtain ⟨-, hentry, rfl⟩ := FileTree.write_eq_ok (mapError_eq_ok.mp ht)
      refine ih ?_ hrest
      rw [FileTree.text?_put_file hentry, hold]
      rfl

theorem text_of_fill (h : FileWork.Faithful device) (hrun : (fill device temp pieces).run d = .ok () d') :
    d'.tree.text? temp.spelled = some (String.join pieces) := by
  obtain ⟨_, created, hcreate, hrun⟩ := run_bind_eq_ok.mp hrun
  obtain ⟨_, filled, happend, hsync⟩ := run_bind_eq_ok.mp hrun
  obtain ⟨t, ht, hcreated⟩ := h.run_eq_ok hcreate
  obtain ⟨-, hentry, rfl⟩ := FileTree.write_eq_ok (mapError_eq_ok.mp ht)
  have hempty : created.tree.text? temp.spelled = some "" := by
    rw [hcreated]
    exact FileTree.text?_put_file hentry ""
  obtain ⟨t, ht, rfl⟩ := h.run_eq_ok hsync
  obtain ⟨s, -, rfl⟩ := map_eq_ok.mp (mapError_eq_ok.mp ht)
  have hfilled : filled.tree.text? temp.spelled = some (String.join pieces) := text_of_appends h hempty happend
  exact hfilled

/-- The temporary file is another than its target. -/
theorem temporary_ne_target (hsuffix : suffix ≠ "") (h : temporary target suffix = .ok temp) :
    temp.spelled ≠ target.spelled := by
  obtain ⟨htarget, rfl, hname⟩ := Path.withSuffix_eq_ok hsuffix h
  rw [Path.spelled_append, Path.step, if_neg hname]
  rw [show target.spelled = _ from congrArg (fun parts => Path.spelled ⟨parts⟩) htarget, Path.spelled_append, Path.step]
  split
  · exact Path.append_ne_above _ hname
  · intro hsame
    have hnames : target.name ++ suffix = target.name := by simpa using List.append_cancel_left hsame
    exact hsuffix (by simpa using hnames)

/-- Where a file has come to be at the target it was moved there, complete, and that was the last operation. -/
theorem renamed_of_replace (h : FileWork.Faithful device)
    (hrun : (replace device temp target pieces).run d = .ok () d') :
    ∃ filled t, d.Reaches (OnTemporary temp) filled ∧ filled.tree.text? temp.spelled = some (String.join pieces)
      ∧ filled.tree.apply (.rename temp target) = .ok t ∧ d' = ⟨t, .rename temp target :: filled.done⟩ := by
  rw [replace_eq] at hrun
  obtain ⟨_, filled, hfill, hrename⟩ := run_bind_eq_ok.mp hrun
  obtain ⟨t, ht, rfl⟩ := h.run_eq_ok hrename
  exact ⟨filled, t, (keeps_fill h temp pieces).ok .start hfill, text_of_fill h hfill, ht, rfl⟩

/-- Moving over the target is the last thing that is done, so where something fails nothing was
done but to fill the temporary file. -/
theorem reaches_of_replace_error (h : FileWork.Faithful device) {e : FileError}
    (hrun : (replace device temp target pieces).run d = .error e d') : d.Reaches (OnTemporary temp) d' := by
  rw [replace_eq, EStateM.run_bind] at hrun
  cases hfill : (fill device temp pieces).run d with
  | error e' q =>
      rw [hfill] at hrun
      cases hrun
      exact (keeps_fill h temp pieces).error .start hfill
  | ok _ q =>
      rw [hfill] at hrun
      rw [h.run_eq_error hrun]
      exact (keeps_fill h temp pieces).ok .start hfill

/-- The place of the temporary file, which there is where it has a name. -/
def siblings (target : Path) (suffix : String) : List Place :=
  match temporary target suffix with
  | .ok temp => [temp.spelled]
  | .error _ => []

theorem siblings_eq (h : temporary target suffix = .ok temp) :
    siblings target suffix = [temp.spelled] := by rw [siblings, h]

theorem target_not_mem_siblings (hsuffix : suffix ≠ "") : target.spelled ∉ siblings target suffix := by
  unfold siblings
  split
  · rename_i temp h
    simpa using (temporary_ne_target hsuffix h).symm
  · exact List.not_mem_nil

/-- What is done before anything is moved over the target: files are changed next to it alone, and directories are made
above it alone. -/
def Preparing (target : Path) (suffix : String) (op : FileOp) : Prop :=
  op.places ⊆ siblings target suffix ∧ ∀ p, op = .makeDirectory p → ∃ n, p = Path.parent^[n] target.parent

theorem preparing_of_onTemporary (h : temporary target suffix = .ok temp) {op : FileOp} (hop : OnTemporary temp op) :
    Preparing target suffix op :=
  ⟨siblings_eq h ▸ hop.1, fun p heq => absurd heq (hop.2 p)⟩

theorem keeps_ensureDirectory (h : FileWork.Faithful device) (target : Path) (suffix : String) :
    Keeps (d.Reaches (Preparing target suffix)) (FileWork.ensureDirectoryOn device target.parent) :=
  h.keeps_ensureDirectory fun n => ⟨List.nil_subset _, fun _ heq => ⟨n, (FileOp.makeDirectory.inj heq).symm⟩⟩

/-- A file that was written was moved over the target when it was complete, and that was the last operation. -/
theorem renamed_of_write (h : FileWork.Faithful device)
    (hrun : (writeOn device target pieces suffix).run d = .ok () d') :
    ∃ temp filled t, temporary target suffix = .ok temp ∧ d.Reaches (Preparing target suffix) filled
      ∧ filled.tree.text? temp.spelled = some (String.join pieces)
      ∧ filled.tree.apply (.rename temp target) = .ok t ∧ d' = ⟨t, .rename temp target :: filled.done⟩ := by
  obtain ⟨_, made, hmade, hrun⟩ := run_bind_eq_ok.mp hrun
  have hprepared := (keeps_ensureDirectory h target suffix).ok .start (run_adaptExcept_eq_ok.mp hmade)
  split at hrun
  · cases hrun
  · rename_i temp htemp
    rw [run_tryCatch] at hrun
    split at hrun
    · rename_i hreplace
      cases hrun
      obtain ⟨filled, t, hfilled, htext, ht, rfl⟩ := renamed_of_replace h (run_adaptExcept_eq_ok.mp hreplace)
      exact ⟨temp, filled, t, htemp, hprepared.trans (hfilled.mono fun op => preparing_of_onTemporary htemp), htext, ht,
        rfl⟩
    · obtain ⟨_, cleaned, -, hrun⟩ := run_bind_eq_ok.mp hrun
      cases hrun

/-- What was begun is undone where it fails, and neither touches the target. -/
theorem reaches_of_attempt_error (h : FileWork.Faithful device) {e : WriteError}
    (hrun : (tryCatch ((replace device temp target pieces).adaptExcept (WriteError.failed target)) fun e => do
      (cleanUp device temp).adaptExcept .files
      throw e).run d = .error e d') : d.Reaches (OnTemporary temp) d' := by
  rw [run_tryCatch, EStateM.run_adaptExcept] at hrun
  cases hreplace : (replace device temp target pieces).run d with
  | ok _ q =>
      rw [hreplace] at hrun
      cases hrun
  | error e' q =>
      rw [hreplace] at hrun
      exact (((keeps_cleanUp h temp).adaptExcept _).bind fun _ => .throw _).error (reaches_of_replace_error h hreplace)
        hrun

/-- Where writing fails nothing was moved over the target. -/
theorem reaches_of_write_error (h : FileWork.Faithful device) {e : WriteError}
    (hrun : (writeOn device target pieces suffix).run d = .error e d') : d.Reaches (Preparing target suffix) d' := by
  rw [writeOn, EStateM.run_bind] at hrun
  have hkeeps := (keeps_ensureDirectory (d := d) h target suffix).adaptExcept WriteError.files
  cases hmade : ((FileWork.ensureDirectoryOn device target.parent).adaptExcept WriteError.files).run d with
  | error e' q =>
      rw [hmade] at hrun
      cases hrun
      exact hkeeps.error .start hmade
  | ok _ q =>
      rw [hmade] at hrun
      have hprepared := hkeeps.ok .start hmade
      dsimp only at hrun
      split at hrun
      · cases hrun
        exact hprepared
      · rename_i temp htemp
        exact hprepared.trans ((reaches_of_attempt_error h hrun).mono fun op => preparing_of_onTemporary htemp)

/-- A file that was written is there, with all of its content. -/
theorem text_of_write (h : FileWork.Faithful device) (hrun : (writeOn device target pieces suffix).run d = .ok () d') :
    d'.tree.place target = .ok target.spelled ∧ d'.tree.text? target.spelled = some (String.join pieces) := by
  obtain ⟨temp, filled, t, -, -, htext, ht, rfl⟩ := renamed_of_write h hrun
  have hdir := (FileTree.changesOnly_apply ht).directory
  obtain ⟨s, hplace, hs, hentry, rfl⟩ := FileTree.rename_eq_ok (mapError_eq_ok.mp ht)
  refine ⟨FileTree.place_mono hdir hplace, ?_⟩
  rw [← htext, hs]
  by_cases hsame : temp.spelled = target.spelled
  · rw [if_pos hsame, ← hsame, hs]
  · have hthere : FileTree.entry? (filled.tree.drop temp.spelled) target.spelled ≠ some .directory := by
      rwa [FileTree.entry?_drop_ne (Ne.symm hsame)]
    rw [if_neg hsame, FileTree.text?_put_file hthere]

/-- Writing changes no files but at the target and next to it. -/
theorem keeps_write (h : FileWork.Faithful device) (target : Path) (pieces : List String) (suffix : String) :
    Keeps (d.Reaches fun op => op.places ⊆ target.spelled :: siblings target suffix)
      (writeOn device target pieces suffix) := by
  have hmore (op : FileOp) (hop : Preparing target suffix op) : op.places ⊆ target.spelled :: siblings target suffix :=
    List.Subset.trans hop.1 (List.subset_cons_self _ _)
  intro d' hd
  cases hrun : (writeOn device target pieces suffix).run d' with
  | error e q => exact hd.trans ((reaches_of_write_error h hrun).mono hmore)
  | ok _ q =>
      obtain ⟨temp, filled, t, htemp, hfilled, -, ht, rfl⟩ := renamed_of_write h hrun
      refine .done (hd.trans (hfilled.mono hmore)) ?_ ht
      rw [siblings_eq htemp]
      simp [FileOp.places]

/-- **Writing as a whole.**  Where writing fails the target has the content that it had. -/
theorem text_of_write_error (h : FileWork.Faithful device) (hsuffix : suffix ≠ "") {e : WriteError}
    (hrun : (writeOn device target pieces suffix).run d = .error e d') :
    d'.tree.text? target.spelled = d.tree.text? target.spelled :=
  (reaches_of_write_error h hrun).text fun _ hop hmem => target_not_mem_siblings hsuffix (hop.1 hmem)

end AtomicWrite

end PartProgram
