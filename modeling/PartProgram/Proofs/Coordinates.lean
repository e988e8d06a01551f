/-
The coordinates of a position in a job.

A directive gives a position as a list, whose items go to the axes in order, or as a map from
the letters of the axes.  Reading the directive looks at each letter by itself and takes both
cases of it; making the position then looks for each axis, and of two keys that read as its
letter the last one counts, even if it gives nothing.  So a map can give a number that no axis
gets: one with another entry for the same axis behind it.

That is the only way to lose a number.  What the position has is what counts, `counted`, and
it is all that was given, `given`, exactly where no number has an entry for its axis behind it.
The items of a list are for different axes, so of a list nothing is lost.

Of the conversions of `Field`, which are taken for granted, three things are used: a list is read
item by item, a map entry by entry with its keys as the texts that they are, and what is null is
left open, and nothing else is.
-/
import Mathlib.Data.List.Nodup
import PartProgram.Proofs.Conversion
import PartProgram.Proofs.JobSettings

namespace PartProgram

/-! ### Numbers for axes

Looking for an axis from the end of a map is the same as letting every entry replace what was
found before, and that is how it is done.  `counted` keeps the entries that are not replaced.
It is part of what was given, in its order, and so a number is lost exactly when it is shorter.
-/

/-- Numbers for axes, some of them left open. -/
abbrev Coordinates := List (String × Option Float)

namespace Coordinates

variable {cs : Coordinates}

/-- The numbers that are given. -/
def given (cs : Coordinates) : List (String × Float) := cs.filterMap fun c => c.2.map (c.1, ·)

/-- The numbers that count: those that are given with nothing behind them for the same axis. -/
def counted : Coordinates → List (String × Float)
  | [] => []
  | (_, none) :: rest => counted rest
  | (axis, some x) :: rest => if axis ∈ rest.map (·.1) then counted rest else (axis, x) :: counted rest

/-- No axis has a number with another entry for the axis behind it. -/
def Unambiguous (cs : Coordinates) : Prop := cs.Pairwise fun c later => c.1 = later.1 → c.2 = none

/-- What is given last for an axis. -/
def last (axis : String) (cs : Coordinates) : Option Float :=
  cs.foldl (fun found c => if c.1 = axis then c.2 else found) none

/-- What is found before does not matter where the axis comes up again. -/
theorem foldl_last (axis : String) (found : Option Float) (cs : Coordinates) :
    cs.foldl (fun found c => if c.1 = axis then c.2 else found) found
      = if axis ∈ cs.map (·.1) then last axis cs else found := by
  induction cs generalizing found with
  | nil => rfl
  | cons c rest ih =>
      rw [last, List.foldl_cons, List.foldl_cons, ih, ih (if c.1 = axis then c.2 else none), List.map_cons]
      by_cases hrest : axis ∈ rest.map (·.1)
      · rw [if_pos hrest, if_pos hrest, if_pos (List.mem_cons_of_mem _ hrest)]
      · rw [if_neg hrest, if_neg hrest]
        by_cases hc : c.1 = axis
        · rw [if_pos hc, if_pos hc, if_pos (hc ▸ List.mem_cons_self)]
        · rw [if_neg hc, if_neg]
          exact fun hmem => (List.mem_cons.mp hmem).elim (fun h => hc h.symm) hrest

theorem last_cons (axis : String) (c : String × Option Float) (rest : Coordinates) :
    last axis (c :: rest) = if axis ∈ rest.map (·.1) then last axis rest else if c.1 = axis then c.2 else none :=
  foldl_last axis _ rest

theorem mem_axes_of_counted {axis : String} {x : Float} (h : (axis, x) ∈ counted cs) : axis ∈ cs.map (·.1) := by
  induction cs with
  | nil => cases h
  | cons c rest ih =>
      rw [List.map_cons]
      match c with
      | (_, none) => exact List.mem_cons_of_mem _ (ih h)
      | (letter, some y) =>
          rw [counted] at h
          split at h
          · exact List.mem_cons_of_mem _ (ih h)
          · rcases List.mem_cons.mp h with hhere | hrest
            · exact List.mem_cons.mpr (Or.inl (Prod.mk.inj hhere).1)
            · exact List.mem_cons_of_mem _ (ih hrest)

/-- What counts for an axis is what is given last for it. -/
theorem mem_counted {axis : String} {x : Float} : (axis, x) ∈ counted cs ↔ last axis cs = some x := by
  induction cs with
  | nil => exact ⟨fun h => (by cases h), fun h => (by cases h)⟩
  | cons c rest ih =>
      rw [last_cons]
      by_cases haxis : axis ∈ rest.map (·.1)
      · -- The axis comes up again, so whatever stands in front, it is not for this axis that it counts.
        rw [if_pos haxis, ← ih]
        match c with
        | (_, none) => exact Iff.rfl
        | (letter, some y) =>
            rw [counted]
            split
            · exact Iff.rfl
            · rename_i hletter
              rw [List.mem_cons]
              exact or_iff_right fun hhere => hletter ((Prod.mk.inj hhere).1 ▸ haxis)
      · have hrest : (axis, x) ∉ counted rest := fun h => haxis (mem_axes_of_counted h)
        rw [if_neg haxis]
        match c with
        | (letter, none) =>
            rw [ite_self]
            exact ⟨fun h => absurd h hrest, fun h => (by cases h)⟩
        | (letter, some y) =>
            rw [counted]
            split
            · rename_i hletter
              rw [if_neg fun heq : letter = axis => haxis (heq ▸ hletter)]
              exact ⟨fun h => absurd h hrest, fun h => (by cases h)⟩
            · rw [List.mem_cons, or_iff_left hrest, Prod.mk.injEq]
              by_cases heq : letter = axis
              · rw [if_pos heq, Option.some.injEq, and_iff_right heq.symm, eq_comm]
              · rw [if_neg heq]
                exact ⟨fun h => absurd h.1.symm heq, fun h => (by cases h)⟩

/-- Of an axis one number counts at most. -/
theorem nodup_counted (cs : Coordinates) : ((counted cs).map (·.1)).Nodup := by
  induction cs with
  | nil => exact List.nodup_nil
  | cons c rest ih =>
      match c with
      | (_, none) => exact ih
      | (letter, some x) =>
          rw [counted]
          split
          · exact ih
          · rename_i hletter
            refine List.nodup_cons.mpr ⟨fun hmem => ?_, ih⟩
            obtain ⟨⟨axis, y⟩, hnumber, rfl⟩ := List.mem_map.mp hmem
            exact hletter (mem_axes_of_counted hnumber)

theorem counted_sublist (cs : Coordinates) : (counted cs).Sublist (given cs) := by
  induction cs with
  | nil => exact List.Sublist.refl _
  | cons c rest ih =>
      match c with
      | (_, none) => exact ih
      | (letter, some x) =>
          rw [counted]
          split
          · exact ih.cons _
          · exact ih.cons_cons _

/-- Every number counts where none has an entry for its axis behind it. -/
theorem length_counted_iff (cs : Coordinates) : (counted cs).length = (given cs).length ↔ cs.Unambiguous := by
  induction cs with
  | nil => exact iff_of_true rfl List.Pairwise.nil
  | cons c rest ih =>
      have hshorter := (counted_sublist rest).length_le
      rw [Unambiguous, List.pairwise_cons, ← Unambiguous, ← ih]
      match c with
      | (_, none) => exact (and_iff_right fun _ _ _ => rfl).symm
      | (letter, some x) =>
          have hgiven : (given ((letter, some x) :: rest)).length = (given rest).length + 1 := rfl
          rw [counted, hgiven]
          split
          · rename_i hletter
            obtain ⟨later, hlater, hsame⟩ := List.mem_map.mp hletter
            refine iff_of_false (by omega) fun h => ?_
            cases h.1 later hlater hsame.symm
          · rename_i hletter
            rw [List.length_cons, Nat.succ_inj]
            refine (and_iff_right ?_).symm
            rintro later hlater rfl
            exact absurd (List.mem_map_of_mem hlater) hletter

end Coordinates

/-! ### Positions of directives -/

namespace PositionSpec

open Coordinates

/-- What the position gives for the axes, by their letters. -/
def coordinates : PositionSpec → Coordinates
  | listed axes => ["x", "y", "z"].zip axes
  | named axes => axes.map fun (k, x) => (Text.lower k, x)

/-- What is looked up for an axis is what is given last for it. -/
theorem axisEntry_named (axis : String) (axes : List (String × Option Float)) :
    Position.axisEntry axis (axes.map fun (k, x) => (.text k, Value.ofFloat? x))
      = Value.ofFloat? (last axis (named axes).coordinates) := by
  have hfold (found : Option Float) :
      (axes.map fun (k, x) => (Value.text k, Value.ofFloat? x)).foldl
        (fun found e => if Text.lower e.1.plain = axis then e.2 else found) (Value.ofFloat? found)
      = Value.ofFloat? ((named axes).coordinates.foldl (fun found c => if c.1 = axis then c.2 else found) found) := by
    unfold coordinates
    induction axes generalizing found with
    | nil => rfl
    | cons c rest ih =>
        simp only [List.map_cons, List.foldl_cons]
        rw [← ih, apply_ite Value.ofFloat?]
        rfl
  exact hfold none

/-- The target of a position. -/
def target (spec : PositionSpec) : Position :=
  ⟨Value.ofFloat? (last "x" spec.coordinates), Value.ofFloat? (last "y" spec.coordinates),
    Value.ofFloat? (last "z" spec.coordinates)⟩

/-- Whether a position has no more axes than there are, and none that is no axis. -/
structure IsChecked (spec : PositionSpec) : Prop where
  length : ∀ axes, spec = listed axes → axes.length ≤ 3
  letters : ∀ c ∈ spec.coordinates, c.1 ∈ ["x", "y", "z"]

variable {spec : PositionSpec}

theorem isChecked_of_check {checked : PositionSpec} (h : spec.check = .accepted checked) : checked.IsChecked := by
  cases spec with
  | listed axes =>
      rw [check] at h
      split at h
      · rename_i hlength
        cases h
        refine ⟨fun axes' heq => (by cases heq; exact hlength), fun c hc => ?_⟩
        exact (List.of_mem_zip hc).1
      · cases h
  | named axes =>
      rw [check] at h
      split at h
      · rename_i hstrange
        cases h
        refine ⟨fun axes' heq => (by cases heq), fun c hc => ?_⟩
        obtain ⟨⟨k, x⟩, hmem, rfl⟩ := List.mem_map.mp hc
        have hnone : strangeKeys axes = [] := List.isEmpty_iff.mp hstrange
        by_contra hletter
        have hstranger : k ∈ strangeKeys axes := by
          rw [strangeKeys, List.mem_mergeSort, List.mem_filter]
          exact ⟨List.mem_map_of_mem (f := (·.1)) hmem, by simpa using hletter⟩
        rw [hnone] at hstranger
        cases hstranger
      · cases h

theorem IsChecked.ofValue? [DigitLimit] (h : spec.IsChecked) : Position.ofValue? spec.toValue = .ok spec.target := by
  cases spec with
  | named axes =>
      rw [ofValue?_named, target, ← axisEntry_named, ← axisEntry_named, ← axisEntry_named]
  | listed axes =>
      match axes, h.length axes rfl with
      | [], _ => rfl
      | [_], _ => rfl
      | [_, _], _ => rfl
      | [_, _, _], _ => rfl
      | _ :: _ :: _ :: _ :: _, hlength => simp only [List.length_cons] at hlength; omega

/-- The items of a list are for different axes. -/
theorem unambiguous_listed (axes : List (Option Float)) : (listed axes).coordinates.Unambiguous := by
  match axes with
  | [] | [_] | [_, _] | _ :: _ :: _ :: _ => simp [Unambiguous, coordinates]

/-- A number as a component of a position. -/
def component (number : String × Float) : String × Value := (Text.upper number.1, .float number.2)

/-- **The target has the numbers that count.** -/
theorem IsChecked.components_perm (h : spec.IsChecked) :
    spec.target.components.Perm (spec.coordinates.counted.map component) := by
  have hcomponents : spec.target.components
      = (["x", "y", "z"].filterMap fun axis => (last axis spec.coordinates).map (axis, ·)).map component := by
    have hupper : Text.upper "x" = "X" ∧ Text.upper "y" = "Y" ∧ Text.upper "z" = "Z" := by decide
    rw [target, List.filterMap_cons, List.filterMap_cons, List.filterMap_cons, List.filterMap_nil]
    cases last "x" spec.coordinates <;> cases last "y" spec.coordinates <;> cases last "z" spec.coordinates <;>
      simp [Position.components, component, Value.ofFloat?, Value.isNull, hupper]
  rw [hcomponents]
  refine List.Perm.map component ((List.perm_ext_iff_of_nodup ?_ (.of_map _ (nodup_counted _))).mpr ?_)
  · refine List.Nodup.filterMap ?_ (by decide)
    intro axis axis' number hnumber hnumber'
    obtain ⟨x, -, rfl⟩ := Option.map_eq_some_iff.mp hnumber
    obtain ⟨x', -, heq⟩ := Option.map_eq_some_iff.mp hnumber'
    exact (Prod.mk.inj heq).1.symm
  · rintro ⟨axis, x⟩
    rw [mem_counted, List.mem_filterMap]
    constructor
    · rintro ⟨axis', -, hx⟩
      obtain ⟨y, hy, heq⟩ := Option.map_eq_some_iff.mp hx
      obtain ⟨rfl, rfl⟩ := Prod.mk.inj heq
      exact hy
    · intro hx
      obtain ⟨c, hc, rfl⟩ := List.mem_map.mp (mem_axes_of_counted (mem_counted.mpr hx))
      exact ⟨c.1, h.letters c hc, by rw [hx]; rfl⟩

end PositionSpec

/-! ### Reading positions

Keys are put together by the texts that they are read as, and besides texts distance modes can
be keys, which are read as digits.  No digit is the letter of an axis.  So where a position is
accepted its keys were texts to begin with, and different keys are for different letters or
cases of a letter.
-/

namespace Field

variable {α : Type} {read : Value → Checked α}

/-- The entries of a map are accepted one by one. -/
theorem forall₂_of_entries {es : List (Value × Value)} {named : List (String × α)}
    (h : entries read es = .accepted named) :
    List.Forall₂ (fun e n => text e.1 = .accepted n.1 ∧ read e.2 = .accepted n.2) es named := by
  induction es generalizing named with
  | nil =>
      cases h
      exact .nil
  | cons e rest ih =>
      obtain ⟨g, more, hg, hmore, rfl⟩ := Checked.beside_eq_accepted.mp h
      obtain ⟨g', a, hg', ha, rfl⟩ := Checked.beside_eq_accepted.mp hg
      obtain ⟨name, hname, rfl⟩ := Checked.map_eq_accepted.mp hg'
      have hkey := Checked.under_eq_accepted.mp (Checked.under_eq_accepted.mp hname)
      exact .cons ⟨hkey, Checked.under_eq_accepted.mp ha⟩ (ih hmore)

/-- No name is lost when names are put together. -/
theorem mem_names_putAll {name : String} (named all : List (String × α)) : name ∈
    (named.foldl (fun all (s, a) => putNamed s a all) all).map (·.1)
      ↔ name ∈ all.map (·.1) ∨ name ∈ named.map (·.1) := by
  induction named generalizing all with
  | nil => simp
  | cons first rest ih =>
      obtain ⟨n, a⟩ := first
      rw [List.foldl_cons, ih, map_fst_putNamed]
      by_cases hn : n ∈ all.map (·.1)
      · rw [if_pos hn, List.map_cons, List.mem_cons]
        constructor
        · exact Or.imp_right Or.inr
        · rintro (hall | rfl | hrest)
          · exact Or.inl hall
          · exact Or.inl hn
          · exact Or.inr hrest
      · rw [if_neg hn, List.mem_append, List.mem_singleton, List.map_cons, List.mem_cons, or_assoc]

end Field

namespace PositionSpec

/-- The value that a position was read from: a list with an item for each axis, or a map with an entry for each letter,
which has the letter as its key. -/
inductive ReadFrom : Value → PositionSpec → Prop where
  | list {items : List Value} {axes : List (Option Float)}
    (h : List.Forall₂ (fun v x => Field.optional Field.number v = .accepted x) items axes) :
    ReadFrom (.list items) (listed axes)
  | tuple {items : List Value} {axes : List (Option Float)}
    (h : List.Forall₂ (fun v x => Field.optional Field.number v = .accepted x) items axes) :
    ReadFrom (.tuple items) (listed axes)
  | map {entries : List (Value × Value)} {axes : List (String × Option Float)}
    (h : List.Forall₂ (fun e c => e.1 = .text c.1 ∧ Field.optional Field.number e.2 = .accepted c.2) entries axes) :
    ReadFrom (.map entries) (named axes)

theorem eq_of_check {spec checked : PositionSpec} (h : spec.check = .accepted checked) : checked = spec := by
  cases spec with
  | listed axes =>
      rw [check] at h
      split at h
      · exact (Checked.accepted.inj h).symm
      · cases h
  | named axes =>
      rw [check] at h
      split at h
      · exact (Checked.accepted.inj h).symm
      · cases h

/-- A key that reads as the letter of an axis is a text: the other keys that read as texts are the distance modes, which
read as digits. -/
theorem eq_text_of_letter {key : Value} {letter : String} (h : Field.text key = .accepted letter)
    (hletter : Text.lower letter ∈ ["x", "y", "z"]) : key = .text letter := by
  cases key with
  | text s => rw [Checked.accepted.inj h]
  | mode m =>
      obtain rfl := Checked.accepted.inj h
      cases m <;> exact absurd hletter (by decide)
  | _ => cases h

/-- A map whose keys are different and read as letters of axes is read entry by entry. -/
theorem readFrom_of_map {v : Value} {axes : List (String × Option Float)}
    (h : Field.map (Field.optional Field.number) v = .accepted axes) (hchecked : (named axes).IsChecked)
    (hkeys : ∀ entries, v = .map entries → (entries.map (·.1)).Nodup) : ReadFrom v (named axes) := by
  cases v with
  | map entries =>
      obtain ⟨pairs, hpairs, rfl⟩ := Checked.map_eq_accepted.mp h
      have hread := Field.forall₂_of_entries hpairs
      have hletters : ∀ c ∈ pairs, Text.lower c.1 ∈ ["x", "y", "z"] := by
        intro c hc
        have hmem := (Field.mem_names_putAll pairs []).mpr (Or.inr (List.mem_map_of_mem hc))
        obtain ⟨c', hc', heq⟩ := List.mem_map.mp hmem
        rw [← heq]
        exact hchecked.letters _ (List.mem_map_of_mem hc')
      have hsame : List.Forall₂ (fun e c => e.1 = .text c.1 ∧ Field.optional Field.number e.2 = .accepted c.2)
          entries pairs := by
        refine ((List.forall₂_and_left _ _).mpr ⟨hletters, hread.flip⟩).flip.imp ?_
        rintro e c ⟨hletter, hkey, hvalue⟩
        exact ⟨eq_text_of_letter hkey hletter, hvalue⟩
      have hnames : (pairs.map (·.1)).Nodup := by
        have hall : entries.map (·.1) = (pairs.map (·.1)).map .text := by
          rw [List.map_map, ← List.forall₂_eq_eq_eq, List.forall₂_map_left_iff, List.forall₂_map_right_iff]
          exact hsame.imp fun e c h => h.1
        exact .of_map _ (hall ▸ hkeys entries rfl)
      rw [Field.putAll_of_nodup (List.nil_append pairs ▸ hnames), List.nil_append]
      exact .map hsame
  | _ => cases h

/-- What is read comes from the value item by item or entry by entry, as long as no two entries have one key. -/
theorem readFrom_of_read {v : Value} {spec : PositionSpec} (h : read v = .accepted spec)
    (hkeys : ∀ entries, v = .map entries → (entries.map (·.1)).Nodup) : spec.IsChecked ∧ ReadFrom v spec := by
  unfold read at h
  split at h
  · rename_i axes hlist
    refine ⟨isChecked_of_check h, ?_⟩
    obtain rfl := eq_of_check h
    cases v with
    | list items => exact .list (Checked.forall₂_of_each hlist)
    | tuple items => exact .tuple (Checked.forall₂_of_each hlist)
    | _ => cases hlist
  · split at h
    · rename_i axes hmap
      have hchecked := isChecked_of_check h
      obtain rfl := eq_of_check h
      exact ⟨hchecked, readFrom_of_map hmap hchecked hkeys⟩
    · cases h

end PositionSpec

/-- The values that a position is made of. -/
def Value.axisValues : Value → List Value
  | .list items => items
  | .tuple items => items
  | .map entries => entries.map (·.2)
  | _ => []

namespace PositionSpec

/-- Values that are read one for one are null where no number is given. -/
theorem length_given_of_forall₂ {vs : List Value} {cs : Coordinates}
    (h : List.Forall₂ (fun v c => Field.optional Field.number v = .accepted c.2) vs cs) :
    cs.given.length = (vs.filter fun v => !v.isNull).length := by
  induction h with
  | nil => rfl
  | @cons v c _ _ hread _ ih =>
      obtain ⟨letter, x⟩ := c
      unfold Field.optional at hread
      split at hread
      · rename_i hnull
        obtain rfl := Checked.accepted.inj hread
        rw [List.filter_cons_of_neg (by simp [hnull]), ← ih]
        rfl
      · rename_i hnull
        obtain ⟨y, -, rfl⟩ := Checked.map_eq_accepted.mp hread
        rw [List.filter_cons_of_pos (by simp [hnull]), List.length_cons, ← ih]
        rfl

theorem forall₂_zip {R : Value → Option Float → Prop} {vs : List Value} {axes : List (Option Float)}
    (h : List.Forall₂ R vs axes) (letters : List String) (hlength : axes.length ≤ letters.length) :
    List.Forall₂ (fun v c => R v c.2) vs (letters.zip axes) := by
  induction h generalizing letters with
  | nil => exact List.zip_nil_right.symm ▸ .nil
  | cons hfirst _ ih =>
      cases letters with
      | nil => simp at hlength
      | cons letter rest => exact .cons hfirst (ih rest (by simpa using hlength))

/-- As many numbers are given as there are values that are not null. -/
theorem ReadFrom.length_given {v : Value} {spec : PositionSpec} (h : ReadFrom v spec) (hchecked : spec.IsChecked) :
    spec.coordinates.given.length = (v.axisValues.filter fun v => !v.isNull).length := by
  cases h with
  | list h => exact length_given_of_forall₂ (forall₂_zip h ["x", "y", "z"] (hchecked.length _ rfl))
  | tuple h => exact length_given_of_forall₂ (forall₂_zip h ["x", "y", "z"] (hchecked.length _ rfl))
  | map h =>
      refine length_given_of_forall₂ ?_
      rw [Value.axisValues, coordinates, List.forall₂_map_left_iff, List.forall₂_map_right_iff]
      exact h.imp fun e c hread => hread.2

end PositionSpec

end PartProgram
