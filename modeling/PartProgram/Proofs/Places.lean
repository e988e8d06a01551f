/-
Where paths lead, and what an operation leaves alone.

Following a path asks the tree whether the names lead on, but the place that is reached does
not depend on the answers: it is what the path spells, with every double point taken back.  So
a place can be named before there is anything at it, and an operation that goes through can
change the files at the places that its paths spell and no others.  It takes no directory away
either, which is why a path that leads somewhere goes on leading there.
-/
import Mathlib.Data.List.Basic
import PartProgram.Files.Tree
import PartProgram.Proofs.Directive

namespace PartProgram

namespace Path

/-- One name further from a place. -/
def step (here : Place) (name : String) : Place :=
  if name = ".." then FileTree.above here else here ++ [name]

/-- The place that a path spells, whether or not anything leads there. -/
def spelled (p : Path) : Place := p.parts.foldl step []

theorem spelled_append (parts : List String) (name : String) :
    spelled ⟨parts ++ [name]⟩ = step (spelled ⟨parts⟩) name := by
  rw [spelled, List.foldl_append]
  rfl

/-- A place that spells itself, as every place does that a path leads to. -/
def Settled (place : Place) : Prop := spelled ⟨place⟩ = place

theorem settled_append {here : Place} (h : Settled here) {name : String} (hname : name ≠ "..") :
    Settled (here ++ [name]) := by
  rw [Settled, spelled_append, h, step, if_neg hname]

theorem settled_dropLast {here : Place} {last : String} (h : Settled here) (hlast : here.getLast? = some last)
    (hname : last ≠ "..") : Settled here.dropLast := by
  have hhere : here.dropLast ++ [last] = here := List.dropLast_append_getLast? last hlast
  have hstep : step (spelled ⟨here.dropLast⟩) last = here.dropLast ++ [last] := by
    rw [← spelled_append, hhere]
    exact h
  rw [step, if_neg hname] at hstep
  exact List.append_cancel_right hstep

theorem settled_above {here : Place} (h : Settled here) : Settled (FileTree.above here) := by
  unfold FileTree.above
  cases hlast : here.getLast? with
  | none => rfl
  | some last =>
      by_cases hback : last = ".."
      · have habove : FileTree.above here = here ++ [".."] := by
          simp only [FileTree.above, hlast, if_pos hback]
        show Settled (if last = ".." then _ else _)
        rw [if_pos hback, Settled, spelled_append, h, step, if_pos rfl, habove]
      · by_cases hroot : isRoot last = true
        · simpa only [if_neg hback, if_pos hroot] using h
        · simpa only [if_neg hback, if_neg hroot] using settled_dropLast h hlast hback

theorem settled_step {here : Place} (h : Settled here) (name : String) : Settled (step here name) := by
  unfold step
  by_cases hname : name = ".."
  · rw [if_pos hname]
    exact settled_above h
  · rw [if_neg hname]
    exact settled_append h hname

theorem settled_foldl {here : Place} (h : Settled here) (names : List String) : Settled (names.foldl step here) := by
  induction names generalizing here with
  | nil => exact h
  | cons name rest ih => exact ih (settled_step h name)

/-- What a path spells spells itself. -/
theorem settled_spelled (p : Path) : Settled p.spelled := settled_foldl (show Settled [] from rfl) p.parts

/-- One name further from a place does not lead above it. -/
theorem append_ne_above (here : Place) {name : String} (hname : name ≠ "..") : here ++ [name] ≠ FileTree.above here := by
  intro h
  unfold FileTree.above at h
  split at h
  · rename_i hlast
    rw [List.getLast?_eq_none_iff.mp hlast] at h
    exact hname (List.head_eq_of_cons_eq h)
  · rename_i last hlast
    split at h
    · exact hname (List.head_eq_of_cons_eq (List.append_cancel_left h))
    · have hlength := congrArg List.length h
      split at hlength
      · simp at hlength
      · simp only [List.length_append, List.length_singleton, List.length_dropLast] at hlength
        omega

/-! ### Names and suffixes

The temporary file is named by the target with more behind its suffix.  For that the path is cut
at its last name and the name at its last point, and both cuts have cases of their own: paths
without a name, names that begin with a point.  Where they go through, the new name is the old
one with more behind it.
-/

theorem suffixChars_suffix (name : List Char) : suffixChars name <:+ name := by
  dsimp only [suffixChars]
  split
  · exact List.nil_suffix
  · rename_i h
    simp only [Bool.or_eq_true, decide_eq_true_eq, not_or, Nat.not_le] at h
    obtain ⟨-, hlong⟩ := h
    have hsplit := List.takeWhile_append_dropWhile (p := (· ≠ '.')) (l := name.reverse)
    generalize name.reverse.takeWhile (· ≠ '.') = tail at hlong hsplit ⊢
    cases hrest : name.reverse.dropWhile (· ≠ '.') with
    | nil =>
        rw [hrest, List.append_nil] at hsplit
        rw [hsplit, List.reverse_reverse] at hlong
        omega
    | cons c rest =>
        have hpoint : c = '.' := by
          have hhead := List.head?_dropWhile_not (· ≠ '.') name.reverse
          rw [hrest] at hhead
          simpa using hhead
        rw [hrest, hpoint] at hsplit
        refine ⟨rest.reverse, ?_⟩
        rw [← List.reverse_inj, ← hsplit]
        simp

/-- A name without its suffix, with the suffix and more behind it, is the name with more behind it. -/
theorem stem_append (p : Path) (more : String) :
    String.ofList (p.name.toList.take (p.name.length - (suffixChars p.name.toList).length)) ++ (p.suffix ++ more)
      = p.name ++ more := by
  have hstem := List.suffix_iff_eq_append.mp (suffixChars_suffix p.name.toList)
  rw [suffix, ← String.append_assoc, ← String.ofList_append, ← String.length_toList, hstem, String.ofList_toList]

/-- A path with a name is its parent with the name behind it. -/
theorem parts_of_name {p : Path} (h : p.name.isEmpty = false) : p.parts = p.parent.parts ++ [p.name] := by
  unfold name at h ⊢
  cases hlast : p.parts.getLast? with
  | none =>
      rw [hlast] at h
      cases h
  | some n =>
      rw [hlast] at h
      by_cases hroot : isRoot n = true
      · simp only [if_pos hroot] at h
        cases h
      · have hparts := List.dropLast_append_getLast? n hlast
        simp only [if_neg hroot]
        unfold parent
        split
        · rename_i first hfirst
          have hn : first = n := by simpa [hfirst] using hlast
          rw [hn, if_neg hroot, hfirst, hn]
          rfl
        · exact hparts.symm

/-- A name with a suffix behind it is no step back. -/
theorem name_append_ne {p : Path} {more : String} (hname : p.name.isEmpty = false) (hmore : more ≠ "")
    (hsuffix : isSuffix (p.suffix ++ more) = true) : p.name ++ more ≠ ".." := by
  intro h
  have hlists : p.name.toList ++ more.toList = ['.', '.'] := by rw [← String.toList_append, h]; rfl
  have hfirst : p.name.toList ≠ [] := by simpa using hname
  have hrest : more.toList ≠ [] := by simpa using hmore
  obtain ⟨c, hc⟩ : ∃ c, p.name.toList = [c] := by
    have hlength := congrArg List.length hlists
    rw [List.length_append] at hlength
    have h1 := List.length_pos_iff.mpr hfirst
    have h2 := List.length_pos_iff.mpr hrest
    exact List.length_eq_one_iff.mp (by simp at hlength h1 h2 ⊢; omega)
  rw [hc] at hlists
  obtain ⟨rfl, hmore⟩ := List.cons.inj hlists
  have hnone : p.suffix = "" := by rw [suffix, hc]; rfl
  have hpoint : more = "." := String.toList_inj.mp hmore
  rw [hnone, hpoint] at hsuffix
  exact absurd hsuffix (by decide)

theorem withSuffix_eq_ok {p q : Path} {more : String} (hmore : more ≠ "") (h : p.withSuffix (p.suffix ++ more) = .ok q) :
    p.parts = p.parent.parts ++ [p.name] ∧ q = ⟨p.parent.parts ++ [p.name ++ more]⟩ ∧ p.name ++ more ≠ ".." := by
  unfold withSuffix at h
  split at h
  · cases h
  · rename_i hsuffix
    split at h
    · cases h
    · rename_i hname
      have hname : p.name.isEmpty = false := by simpa using hname
      simp only [stem_append] at h
      exact ⟨parts_of_name hname, (Except.ok.inj h).symm, name_append_ne hname hmore (by simpa using hsuffix)⟩

end Path

/-- The places whose files an operation may change. -/
def FileOp.places : FileOp → List Place
  | .makeDirectory _ | .sync _ => []
  | .create p | .open_ p | .append p _ | .remove p => [p.spelled]
  | .rename p q => [p.spelled, q.spelled]

namespace FileTree

variable {t t' : FileTree}

/-! ### Following paths

Where a path leads anywhere it leads to the place that it spells, and which places it passes
through is of no importance later.  More directories cannot make it lead elsewhere.
-/

theorem follow_eq_ok {here place : Place} {names : List String} (h : t.follow here names = .ok place) :
    place = names.foldl Path.step here := by
  induction names generalizing here with
  | nil =>
      cases h
      rfl
  | cons name rest ih =>
      unfold follow at h
      split at h
      · cases h
      · cases h
      · split at h
        · cases h
        · exact ih h

/-- A path that leads somewhere leads to the place that it spells. -/
theorem spelled_of_place {p : Path} {place : Place} (h : t.place p = .ok place) : place = p.spelled := by
  unfold FileTree.place at h
  split at h
  · cases h
  · split at h
    · cases h
    · exact follow_eq_ok h

/-- More directories lead at least as far. -/
theorem follow_mono (hdir : ∀ place, t.entry? place = some .directory → t'.entry? place = some .directory)
    {here place : Place} {names : List String} (h : t.follow here names = .ok place) :
    t'.follow here names = .ok place := by
  induction names generalizing here with
  | nil => exact h
  | cons name rest ih =>
      unfold follow at h ⊢
      cases hentry : t.entry? here with
      | none =>
          rw [hentry] at h
          cases h
      | some e =>
          rw [hentry] at h
          cases e with
          | file s => cases h
          | directory =>
              rw [hdir here hentry]
              dsimp only at h ⊢
              split at h
              · cases h
              · rename_i hlong
                rw [if_neg hlong]
                exact ih h

theorem place_mono (hdir : ∀ place, t.entry? place = some .directory → t'.entry? place = some .directory)
    {p : Path} {place : Place} (h : t.place p = .ok place) : t'.place p = .ok place := by
  unfold FileTree.place at h ⊢
  split at h
  · cases h
  · rename_i hzero
    rw [if_neg hzero]
    split at h
    · cases h
    · rename_i hlong
      rw [if_neg hlong]
      exact follow_mono hdir h

/-! ### Entries -/

/-- The content of the file at a place, where there is one. -/
def text? (t : FileTree) (place : Place) : Option String :=
  match t.entry? place with
  | some (.file s) => some s
  | _ => none

theorem entry_of_text {place : Place} {s : String} (h : t.text? place = some s) :
    t.entry? place = some (.file s) := by
  unfold text? at h
  split at h
  · rename_i hentry
    rw [hentry, Option.some.inj h]
  · cases h

theorem content_of_text {p : Path} {s : String} (hp : t.place p = .ok p.spelled) (hs : t.text? p.spelled = some s) :
    t.content p = .ok s := by
  have hfind : t.find p = .ok (.file s) := by
    have hentry : t.entry? p.spelled = some (.file s) := entry_of_text hs
    show (t.place p).bind _ = _
    simp only [hp, Except.bind, hentry]
  rw [content, hfind]

theorem lookup_filter_ne (entries : List (Place × Entry)) (here place : Place) :
    (entries.filter fun x => x.1 ≠ here).lookup place = if place = here then none else entries.lookup place := by
  induction entries with
  | nil => simp
  | cons first rest ih =>
      obtain ⟨there, e⟩ := first
      by_cases hthere : there = here
      · subst hthere
        rw [List.filter_cons_of_neg (by simp), ih]
        by_cases hplace : place = there
        · rw [if_pos hplace, if_pos hplace]
        · rw [if_neg hplace, if_neg hplace, List.lookup_cons, beq_eq_false_iff_ne.mpr hplace]
      · rw [List.filter_cons_of_pos (by simpa using hthere)]
        by_cases hplace : place = there
        · have hne : ¬ place = here := fun e => hthere (hplace.symm.trans e)
          rw [if_neg hne, hplace, List.lookup_cons_self, List.lookup_cons_self]
        · rw [List.lookup_cons, List.lookup_cons, beq_eq_false_iff_ne.mpr hplace, ih]

theorem entry?_put (t : FileTree) (here place : Place) (e : Entry) :
    FileTree.entry? (t.put here e) place =
      if isAlwaysThere place then some .directory else if place = here then some e else t.entry? place := by
  by_cases halways : isAlwaysThere place = true
  · rw [ entry?, if_pos halways, if_pos halways]
  · rw [ entry?, if_neg halways, if_neg halways, entry?, if_neg halways, put]
    by_cases hplace : place = here
    · rw [if_pos hplace, hplace, List.lookup_cons_self]
    · rw [if_neg hplace, List.lookup_cons, beq_eq_false_iff_ne.mpr hplace, lookup_filter_ne, if_neg hplace]

theorem entry?_drop (t : FileTree) (here place : Place) :
    FileTree.entry? (t.drop here) place =
      if isAlwaysThere place then some .directory else if place = here then none else t.entry? place := by
  by_cases halways : isAlwaysThere place = true
  · rw [ entry?, if_pos halways, if_pos halways]
  · rw [ entry?, if_neg halways, if_neg halways, entry?, if_neg halways, drop, lookup_filter_ne]

/-- What is always there is a directory. -/
theorem not_always_of_entry {place : Place} (h : t.entry? place ≠ some .directory) : isAlwaysThere place = false := by
  cases halways : isAlwaysThere place with
  | false => rfl
  | true => exact absurd (by rw [ entry?, if_pos halways]) h

/-! ### What an operation leaves alone

`ChangesOnly` is what most of the development has to know of an operation: which files it may
have changed.  It says nothing of directories that were made, but that none was lost.
-/

/-- The files at all but the given places are as they were, and all directories are still there. -/
structure ChangesOnly (t : FileTree) (places : List Place) (t' : FileTree) : Prop where
  text : ∀ place, place ∉ places → t'.text? place = t.text? place
  directory : ∀ place, t.entry? place = some .directory → t'.entry? place = some .directory

namespace ChangesOnly

variable {places more : List Place}

theorem refl (t : FileTree) (places : List Place) : t.ChangesOnly places t := ⟨fun _ _ => rfl, fun _ h => h⟩

theorem trans {t'' : FileTree} (h : t.ChangesOnly places t') (h' : t'.ChangesOnly places t'') :
    t.ChangesOnly places t'' :=
  ⟨fun place hp => (h'.text place hp).trans (h.text place hp), fun place hd => h'.directory place (h.directory place hd)⟩

theorem mono (h : t.ChangesOnly places t') (hsub : places ⊆ more) : t.ChangesOnly more t' :=
  ⟨fun place hp => h.text place fun hmem => hp (hsub hmem), h.directory⟩

/-- Entries that are the same elsewhere, and no directory at the place. -/
theorem of_entries {here : Place} (hhere : t.entry? here ≠ some .directory)
    (h : ∀ place, place ≠ here → t'.entry? place = t.entry? place) : t.ChangesOnly [here] t' := by
  constructor
  · intro place hplace
    rw [text?, text?, h place (List.ne_of_not_mem_cons hplace)]
  · intro place hdir
    by_cases hplace : place = here
    · exact absurd (hplace ▸ hdir) hhere
    · rw [h place hplace, hdir]

end ChangesOnly

theorem entry?_put_ne {here place : Place} (hplace : place ≠ here) (e : Entry) :
    FileTree.entry? (t.put here e) place = t.entry? place := by
  rw [entry?_put, if_neg hplace, entry?]
  split <;> rfl

theorem entry?_drop_ne {here place : Place} (hplace : place ≠ here) : FileTree.entry? (t.drop here) place = t.entry? place := by
  rw [entry?_drop, if_neg hplace, entry?]
  split <;> rfl

theorem text?_put_file {here : Place} (hhere : t.entry? here ≠ some .directory) (s : String) :
    (t.put here (.file s)).text? here = some s := by
  rw [text?, entry?_put, if_pos rfl, not_always_of_entry hhere]
  rfl

/-- Putting a file somewhere makes no directory. -/
theorem directory_of_put_file {here place : Place} {s : String}
    (h : FileTree.entry? (t.put here (.file s)) place = some .directory) : t.entry? place = some .directory := by
  rw [entry?_put] at h
  split at h
  · rename_i halways
    rw [ entry?, if_pos halways]
  · split at h
    · cases h
    · exact h

/-- And neither does taking something away. -/
theorem directory_of_drop {here place : Place} (h : FileTree.entry? (t.drop here) place = some .directory) :
    t.entry? place = some .directory := by
  rw [entry?_drop] at h
  split at h
  · rename_i halways
    rw [ entry?, if_pos halways]
  · split at h
    · cases h
    · exact h

/-! ### What an operation does where it goes through -/

theorem place_spelled {p : Path} {place : Place} (h : t.place p = .ok place) : t.place p = .ok p.spelled := by
  rw [h, spelled_of_place h]

theorem makeDirectory_eq_ok {p : Path} (h : t.makeDirectory p = .ok t') :
    t.entry? p.spelled = none ∧ t' = t.put p.spelled .directory := by
  obtain ⟨here, hp, h⟩ := bind_eq_ok.mp h
  rw [spelled_of_place hp] at h
  split at h
  · cases h
  · rename_i hentry
    cases h
    exact ⟨hentry, rfl⟩

theorem write_eq_ok {p : Path} {f : Option String → String} (h : t.write p f = .ok t') :
    t.place p = .ok p.spelled ∧ t.entry? p.spelled ≠ some .directory
      ∧ t' = t.put p.spelled (.file (f (t.text? p.spelled))) := by
  obtain ⟨here, hp, h⟩ := bind_eq_ok.mp h
  rw [spelled_of_place hp] at h
  refine ⟨place_spelled hp, ?_⟩
  split at h
  · cases h
  · rename_i old hentry
    cases h
    exact ⟨by rw [hentry]; simp, by rw [text?, hentry]⟩
  · rename_i hentry
    cases h
    exact ⟨by rw [hentry]; simp, by rw [text?, hentry]⟩

theorem remove_eq_ok {p : Path} (h : t.remove p = .ok t') :
    t.entry? p.spelled ≠ some .directory ∧ t' = t.drop p.spelled := by
  obtain ⟨here, hp, h⟩ := bind_eq_ok.mp h
  rw [spelled_of_place hp] at h
  split at h
  · cases h
  · rename_i old hentry
    cases h
    exact ⟨by rw [hentry]; simp, rfl⟩
  · cases h

theorem rename_eq_ok {p q : Path} (h : t.rename p q = .ok t') :
    ∃ s, t.place q = .ok q.spelled ∧ t.text? p.spelled = some s ∧ t.entry? q.spelled ≠ some .directory
      ∧ t' = if p.spelled = q.spelled then t else (t.drop p.spelled).put q.spelled (.file s) := by
  obtain ⟨here, hp, h⟩ := bind_eq_ok.mp h
  obtain ⟨there, hq, h⟩ := bind_eq_ok.mp h
  rw [spelled_of_place hp, spelled_of_place hq] at h
  cases hends : (!p.endsInName || !q.endsInName) with
  | true =>
      rw [hends] at h
      cases h
  | false =>
      rw [hends] at h
      simp only [Bool.false_eq_true, if_false] at h
      split at h
      · cases h
      · rename_i old hentry hthere
        cases h
        exact ⟨old, place_spelled hq, by rw [text?, hentry], hthere, rfl⟩
      · cases h
      · cases h

theorem changesOnly_makeDirectory {p : Path} (h : t.makeDirectory p = .ok t') : t.ChangesOnly [] t' := by
  obtain ⟨hentry, rfl⟩ := makeDirectory_eq_ok h
  have hput : t.ChangesOnly [p.spelled] (t.put p.spelled .directory) :=
    .of_entries (by rw [hentry]; simp) fun place hplace => entry?_put_ne hplace _
  refine ⟨fun place _ => ?_, hput.directory⟩
  by_cases hplace : place = p.spelled
  · subst hplace
    have hnew : FileTree.entry? (t.put p.spelled .directory) p.spelled = some .directory := by
      rw [entry?_put, if_pos rfl, ite_self]
    rw [text?, text?, hentry, hnew]
  · exact hput.text place (by simpa using hplace)

theorem changesOnly_write {p : Path} {f : Option String → String} (h : t.write p f = .ok t') :
    t.ChangesOnly [p.spelled] t' := by
  obtain ⟨-, hentry, rfl⟩ := write_eq_ok h
  exact .of_entries hentry fun place hplace => entry?_put_ne hplace _

theorem changesOnly_remove {p : Path} (h : t.remove p = .ok t') : t.ChangesOnly [p.spelled] t' := by
  obtain ⟨hentry, rfl⟩ := remove_eq_ok h
  exact .of_entries hentry fun place hplace => entry?_drop_ne hplace

theorem changesOnly_rename {p q : Path} (h : t.rename p q = .ok t') :
    t.ChangesOnly [p.spelled, q.spelled] t' := by
  obtain ⟨s, -, hs, hentry, rfl⟩ := rename_eq_ok h
  by_cases hsame : p.spelled = q.spelled
  · rw [if_pos hsame]
    exact .refl t _
  · rw [if_neg hsame]
    have hdrop : t.ChangesOnly [p.spelled] (t.drop p.spelled) :=
      .of_entries (by rw [entry_of_text hs]; simp) fun place hplace => entry?_drop_ne hplace
    have hthere : FileTree.entry? (t.drop p.spelled) q.spelled ≠ some .directory := by
      rwa [entry?_drop_ne (Ne.symm hsame)]
    have hput : (t.drop p.spelled).ChangesOnly [q.spelled] ((t.drop p.spelled).put q.spelled (.file s)) :=
      .of_entries hthere fun place hplace => entry?_put_ne hplace _
    exact (hdrop.mono (by simp)).trans (hput.mono (by simp))

/-- An operation that goes through changes the files at its places alone. -/
theorem changesOnly_apply {op : FileOp} (h : t.apply op = .ok t') : t.ChangesOnly op.places t' := by
  cases op with
  | makeDirectory p => exact changesOnly_makeDirectory (mapError_eq_ok.mp h)
  | create p => exact changesOnly_write (mapError_eq_ok.mp h)
  | open_ p => exact changesOnly_write (mapError_eq_ok.mp h)
  | append p s => exact changesOnly_write (mapError_eq_ok.mp h)
  | sync p =>
      obtain ⟨s, -, rfl⟩ := map_eq_ok.mp (mapError_eq_ok.mp h)
      exact .refl t _
  | rename p q => exact changesOnly_rename (mapError_eq_ok.mp h)
  | remove p => exact changesOnly_remove (mapError_eq_ok.mp h)

/-- A directory was there before, or it is the one that was made. -/
theorem directory_of_apply {op : FileOp} (h : t.apply op = .ok t') {place : Place}
    (hdir : t'.entry? place = some .directory) :
    t.entry? place = some .directory ∨ ∃ p, op = .makeDirectory p ∧ place = p.spelled := by
  cases op with
  | makeDirectory p =>
      obtain ⟨-, rfl⟩ := makeDirectory_eq_ok (mapError_eq_ok.mp h)
      by_cases hplace : place = p.spelled
      · exact Or.inr ⟨p, rfl, hplace⟩
      · exact Or.inl ((entry?_put_ne hplace _).symm.trans hdir)
  | create p =>
      obtain ⟨-, -, rfl⟩ := write_eq_ok (mapError_eq_ok.mp h)
      exact Or.inl (directory_of_put_file hdir)
  | open_ p =>
      obtain ⟨-, -, rfl⟩ := write_eq_ok (mapError_eq_ok.mp h)
      exact Or.inl (directory_of_put_file hdir)
  | append p s =>
      obtain ⟨-, -, rfl⟩ := write_eq_ok (mapError_eq_ok.mp h)
      exact Or.inl (directory_of_put_file hdir)
  | sync p =>
      obtain ⟨s, -, rfl⟩ := map_eq_ok.mp (mapError_eq_ok.mp h)
      exact Or.inl hdir
  | rename p q =>
      obtain ⟨s, -, -, -, rfl⟩ := rename_eq_ok (mapError_eq_ok.mp h)
      split at hdir
      · exact Or.inl hdir
      · exact Or.inl (directory_of_drop (directory_of_put_file hdir))
  | remove p =>
      obtain ⟨-, rfl⟩ := remove_eq_ok (mapError_eq_ok.mp h)
      exact Or.inl (directory_of_drop hdir)

/-- A file stays where it is, short of being moved or removed. -/
theorem eq_of_placeAfter {op : FileOp} {place after : Place} (h : t.placeAfter op place = some after) :
    after = place ∨ ∃ p q, op = .rename p q ∧ place = p.spelled := by
  cases op with
  | rename p q =>
      simp only [placeAfter] at h
      split at h
      · rename_i here there hp hq
        split at h
        · exact .inl (Option.some.inj h).symm
        · split at h
          · rename_i hplace
            exact .inr ⟨p, q, rfl, by rw [hplace, spelled_of_place hp]⟩
          · split at h
            · cases h
            · exact .inl (Option.some.inj h).symm
      · exact .inl (Option.some.inj h).symm
  | remove p =>
      simp only [placeAfter] at h
      split at h
      · cases h
      · exact .inl (Option.some.inj h).symm
  | makeDirectory _ => exact .inl (Option.some.inj h).symm
  | create _ => exact .inl (Option.some.inj h).symm
  | open_ _ => exact .inl (Option.some.inj h).symm
  | append _ _ => exact .inl (Option.some.inj h).symm
  | sync _ => exact .inl (Option.some.inj h).symm

end FileTree

end PartProgram
