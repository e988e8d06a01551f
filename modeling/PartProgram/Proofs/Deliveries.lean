/-
What work on files and the delivery of records do to a journal.

The journal goes along with all work on files, since its own files may be moved.  Nothing else
about it changes then: it has the same outlets under the same numbers, the same threshold, the
same context, and it has taken the same records.  Delivering a record is such work too, behind
the one thing that it does to the journal itself, which is to take the record.
-/
import PartProgram.Proofs.Sessions

namespace PartProgram

/-- The kind of an outlet, wherever its file is. -/
def OutletKind.unplaced : OutletKind → OutletKind
  | .file _ form => .file none form
  | kind => kind

/-- An outlet, wherever its file is. -/
def Outlet.unplaced (o : Outlet) : Outlet := { o with kind := o.kind.unplaced }

/-- An outlet of somebody else is the same wherever the files are. -/
theorem Outlet.eq_of_unplaced {o o' : Outlet} (ho : o.kind = .other) (h : o'.unplaced = o.unplaced) : o' = o := by
  obtain ⟨n, kind⟩ := o
  obtain ⟨n', kind'⟩ := o'
  obtain rfl : kind = .other := ho
  injection h with hnumber hkind
  obtain rfl : n' = n := hnumber
  cases kind' with
  | other => rfl
  | console colour => cases hkind
  | file place form => cases hkind

theorem Outlet.eq_of_map_unplaced {os os' : List Outlet} (hos : ∀ o ∈ os, o.kind = .other)
    (h : os'.map unplaced = os.map unplaced) : os' = os := by
  induction os generalizing os' with
  | nil => exact List.map_eq_nil_iff.mp h
  | cons o rest ih =>
      obtain ⟨o', rest', rfl, ho, hrest⟩ := List.map_eq_cons_iff.mp h
      obtain ⟨hother, hothers⟩ := List.forall_mem_cons.mp hos
      rw [eq_of_unplaced hother ho, ih hothers hrest]

theorem Outlet.map_number_of_unplaced {os os' : List Outlet} (h : os'.map unplaced = os.map unplaced) :
    os'.map (·.number) = os.map (·.number) := by
  have hnumbers := congrArg (List.map (·.number)) h
  rwa [List.map_map, List.map_map] at hnumbers

/-- The same journal, wherever its files are. -/
structure Journal.Moved (j j' : Journal) : Prop where
  threshold : j'.threshold = j.threshold
  attached : j'.attached.map Outlet.unplaced = j.attached.map Outlet.unplaced
  own : j'.own.map Outlet.unplaced = j.own.map Outlet.unplaced
  nextNumber : j'.nextNumber = j.nextNumber
  context : j'.context = j.context
  entries : j'.entries = j.entries

namespace Journal

variable {j j' j'' : Journal}

theorem Moved.refl (j : Journal) : j.Moved j := ⟨rfl, rfl, rfl, rfl, rfl, rfl⟩

theorem Moved.trans (h : j.Moved j') (h' : j'.Moved j'') : j.Moved j'' where
  threshold := h'.threshold.trans h.threshold
  attached := h'.attached.trans h.attached
  own := h'.own.trans h.own
  nextNumber := h'.nextNumber.trans h.nextNumber
  context := h'.context.trans h.context
  entries := h'.entries.trans h.entries

/-- What is attached besides the journal's own outlets is told by numbers, and those stay. -/
theorem Moved.release (h : j.Moved j') : j.release.Moved j'.release where
  threshold := h.threshold
  attached := by
    have hfilter (k : Journal) : k.release.attached.map Outlet.unplaced
        = (k.attached.map Outlet.unplaced).filter fun o => !(k.own.map (·.number)).contains o.number := by
      rw [List.filter_map]
      rfl
    rw [hfilter, hfilter, h.attached, Outlet.map_number_of_unplaced h.own]
  own := rfl
  nextNumber := h.nextNumber
  context := h.context
  entries := h.entries

theorem moved_follow (j : Journal) (t : FileTree) (op : FileOp) : j.Moved (j.follow t op) := by
  have hmoved (os : List Outlet) :
      ({ j with attached := os }.follow t op).attached.map Outlet.unplaced = os.map Outlet.unplaced := by
    unfold follow
    dsimp only
    rw [List.map_map]
    refine List.map_congr_left fun o _ => ?_
    rw [Function.comp_apply]
    split
    · rename_i place form hkind
      rw [Outlet.unplaced, Outlet.unplaced, hkind]
      rfl
    · rfl
  exact ⟨rfl, hmoved j.attached, hmoved j.own, rfl, rfl, rfl⟩

/-- The journal after a record has come to it. -/
def noted (r : Record) (j : Journal) : Journal := if j.takes r.level then j.take r else j

end Journal

namespace Session

open Journal (Moved moved_follow)

theorem moved_withDisk (s : Session) (d : Disk) : s.journal.Moved (s.withDisk d).journal :=
  List.foldlRecOn _ _ (.refl s.journal) fun j hj op _ => hj.trans (moved_follow j d.tree op)

theorem moved_onDisk {ε δ α : Type} (wrap : δ → ε) (work : EStateM δ Disk α) (s : Session) :
    s.journal.Moved (leaves ((onDisk wrap work).run s)).journal := by
  rw [run_onDisk]
  cases work.run s.disk with
  | ok a d => exact moved_withDisk s d
  | error e d => exact moved_withDisk s d

theorem moved_appendLine (line : String) (place : Option Place) (s : Session) :
    s.journal.Moved (s.appendLine line place).journal := by
  unfold appendLine
  cases place with
  | none => exact .refl s.journal
  | some place =>
      dsimp only
      split
      · exact moved_withDisk s _
      · exact moved_withDisk s _

variable [DigitLimit]

theorem moved_write (r : Record) (s : Session) (o : Outlet) : s.journal.Moved (write r s o).journal := by
  unfold write
  split
  · split
    · exact .refl s.journal
    · exact .refl s.journal
  · split
    · exact moved_appendLine _ _ s
    · exact .refl s.journal
  · exact .refl s.journal

theorem moved_showPlain (r : Record) (s : Session) : s.journal.Moved (s.showPlain r).journal := by
  unfold showPlain
  split
  · exact .refl s.journal
  · split
    · exact .refl s.journal
    · exact .refl s.journal

/-- **A delivery** does nothing to the journal but that it takes the record. -/
theorem moved_deliver (r : Record) (s : Session) : (s.journal.noted r).Moved (s.deliver r).journal := by
  unfold deliver Journal.noted
  by_cases h : s.journal.takes r.level = true
  · rw [if_pos h, if_pos h]
    dsimp only
    split
    · exact moved_showPlain r { s with journal := s.journal.take r }
    · have htaken : (s.journal.take r).Moved { s with journal := s.journal.take r }.journal := .refl _
      exact List.foldlRecOn (motive := fun s' : Session => (s.journal.take r).Moved s'.journal) _ _ htaken
        fun s' hs' o _ => hs'.trans (moved_write r s' o)
  · rw [if_neg h, if_neg h]
    exact .refl s.journal

end Session

end PartProgram
