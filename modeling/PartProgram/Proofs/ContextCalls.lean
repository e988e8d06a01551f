/-
Calls that change a context.

A context is changed in two ways: values are pushed on it, and names are popped from it.  It is a
list, but one that names everything once, and that is what lets it be read as a map: a name stands
for the value pushed last, and for the one from before where there is none.

A call that fails leaves the context as it was.  So whatever calls there were, a context names
everything once, and its values are among those that were pushed.
-/
import PartProgram.Journal.Context
import PartProgram.Proofs.JobSettings

namespace PartProgram

/-! ### Values by their names -/

namespace Fields

variable {f : Fields} {name : String}

theorem mem_of_lookup {v : Value} (h : f.lookup name = some v) : (name, v) ∈ f := by
  obtain ⟨front, back, rfl, -⟩ := List.lookup_eq_some_iff.mp h
  exact List.mem_append_right front List.mem_cons_self

/-- Where everything is named once, a name stands for the value that goes with it. -/
theorem lookup_of_mem (hnodup : f.names.Nodup) {field : String × Value} (h : field ∈ f) :
    f.lookup field.1 = some field.2 := by
  induction f with
  | nil => cases h
  | cons first rest ih =>
      obtain ⟨hfirst, hrest⟩ := List.nodup_cons.mp hnodup
      rw [lookup_cons]
      rcases List.mem_cons.mp h with rfl | hmem
      · rw [if_pos rfl]
      · have hfield : field.1 ∈ rest.map (·.1) := List.mem_map_of_mem hmem
        have hne : field.1 ≠ first.1 := by
          intro heq
          rw [heq] at hfield
          exact hfirst hfield
        rw [if_neg hne, ih hrest hmem]

theorem mem_iff_lookup (hnodup : f.names.Nodup) {v : Value} : (name, v) ∈ f ↔ f.lookup name = some v :=
  ⟨fun h => lookup_of_mem hnodup h, mem_of_lookup⟩

theorem mem_putNamed {field : String × Value} {v : Value} (h : field ∈ Field.putNamed name v f) :
    field ∈ f ∨ field = (name, v) := by
  induction f with
  | nil => exact Or.inr (List.mem_singleton.mp h)
  | cons first rest ih =>
      obtain ⟨n, w⟩ := first
      rw [Field.putNamed] at h
      split at h
      · rename_i hn
        subst hn
        exact (List.mem_cons.mp h).symm.imp_left (List.mem_cons_of_mem _)
      · rcases List.mem_cons.mp h with rfl | hrest
        · exact Or.inl List.mem_cons_self
        · exact (ih hrest).imp_left (List.mem_cons_of_mem _)

theorem mem_putAll {field : String × Value} {changes : Fields} (h : field ∈ f.putAll changes) :
    field ∈ f ∨ field ∈ changes := by
  induction changes generalizing f with
  | nil => exact Or.inl h
  | cons first rest ih =>
      rcases ih (f := Field.putNamed first.1 first.2 f) h with hput | hrest
      · exact (mem_putNamed hput).imp_right fun hfirst => List.mem_cons.mpr (Or.inl hfirst)
      · exact Or.inr (List.mem_cons_of_mem _ hrest)

end Fields

namespace Context

variable {c c' fields : Context}

theorem put_eq (name : String) (v : Value) (c : Context) : c.put name v = Field.putNamed name v c := by
  induction c with
  | nil => rfl
  | cons first rest ih =>
      rw [put, Field.putNamed, ih]

/-- Values are pushed on a context as fields are put among others. -/
theorem push_eq (c fields : Context) : c.push fields = Fields.putAll c fields := by
  induction fields generalizing c with
  | nil => rfl
  | cons first rest ih =>
      show (c.put first.1 first.2).push rest = _
      rw [ih, put_eq]
      rfl

/-- **After a push** a name stands for the value pushed, and for what it stood for before where there is none. -/
theorem lookup_push (h : (Fields.names fields).Nodup) (c : Context) (name : String) :
    (c.push fields).lookup name = (fields.lookup name).or (c.lookup name) := by
  rw [push_eq, Fields.lookup_putAll h]

theorem nodup_push (h : (Fields.names c).Nodup) (fields : Context) : (Fields.names (c.push fields)).Nodup := by
  rw [push_eq]
  exact Fields.nodup_putAll h fields

/-- Popping only takes away. -/
theorem sublist_popValues {vs : List Value} (h : popValues vs c = .ok c') : List.Sublist c' c := by
  fun_induction popValues vs c with
  | case1 c => exact Except.ok.inj h ▸ List.Sublist.refl _
  | case2 v rest c hempty => exact Except.ok.inj h ▸ List.Sublist.refl _
  | case3 rest c hempty name ih => exact (ih h).trans List.filter_sublist
  | case4 rest c hempty v htext hfit ih => exact ih h
  | case5 => cases h

theorem sublist_popGiven {given : Value} (h : c.popGiven given = .ok c') : List.Sublist c' c := by
  unfold popGiven at h
  split at h
  · cases h
    exact List.nil_sublist c
  · split at h
    · rename_i items _
      cases hpop : popValues items c with
      | error e =>
          rw [hpop] at h
          cases h
      | ok popped =>
          rw [hpop] at h
          cases h
          exact sublist_popValues hpop
    · cases h

/-! ### Calls one after another

A pop looks at its names one by one, and the one that it cannot look at makes it fail.  It has
changed nothing by then, since what is popped is put together before the context is replaced.
So a call either does all that it is asked for or nothing.
-/

/-- A call that changes the context. -/
inductive Change where
  | push (fields : Context)
  | pop (given : Value)

namespace Change

/-- The context after a call.  What cannot be popped leaves it as it was. -/
def on (c : Context) : Change → Context
  | push fields => c.push fields
  | pop given => match c.popGiven given with
    | .ok popped => popped
    | .error _ => c

/-- Whether all values that a call pushes are of the given sort. -/
def Pushes (P : Value → Prop) : Change → Prop
  | push fields => ∀ field ∈ fields, P field.2
  | pop _ => True

theorem sublist_on_pop (c : Context) (given : Value) : List.Sublist (on c (pop given)) c := by
  rw [on]
  split
  · rename_i hpop
    exact sublist_popGiven hpop
  · exact List.Sublist.refl c

theorem nodup_on (h : (Fields.names c).Nodup) (change : Change) : (Fields.names (on c change)).Nodup := by
  cases change with
  | push fields => exact nodup_push h fields
  | pop given => exact h.sublist ((sublist_on_pop c given).map _)

theorem forall_mem_on {P : Value → Prop} {change : Change} (h : ∀ field ∈ c, P field.2) (hpushes : change.Pushes P) :
    ∀ field ∈ on c change, P field.2 := by
  cases change with
  | push fields =>
      intro field hfield
      have hput : field ∈ Fields.putAll c fields := push_eq c fields ▸ hfield
      exact (Fields.mem_putAll hput).elim (h field) (hpushes field)
  | pop given => exact fun field hfield => h field ((sublist_on_pop c given).subset hfield)

end Change

/-- The context that calls lead to, from one with nothing in it. -/
def reached (changes : List Change) : Context := changes.foldl Change.on []

/-- **Whatever the calls**, everything is named once. -/
theorem nodup_reached (changes : List Change) : (Fields.names (reached changes)).Nodup := by
  have hrun (changes : List Change) {c : Context} (h : (Fields.names c).Nodup) :
      (Fields.names (changes.foldl Change.on c)).Nodup := by
    induction changes generalizing c with
    | nil => exact h
    | cons change rest ih => exact ih (Change.nodup_on h change)
  exact hrun changes List.nodup_nil

/-- The values in a context are of the sort of those that were pushed. -/
theorem forall_mem_reached {P : Value → Prop} {changes : List Change} (h : ∀ change ∈ changes, change.Pushes P) :
    ∀ field ∈ reached changes, P field.2 := by
  have hrun {changes : List Change} {c : Context} (hpushes : ∀ change ∈ changes, change.Pushes P)
      (hc : ∀ field ∈ c, P field.2) : ∀ field ∈ changes.foldl Change.on c, P field.2 := by
    induction changes generalizing c with
    | nil => exact hc
    | cons change rest ih =>
        obtain ⟨hchange, hrest⟩ := List.forall_mem_cons.mp hpushes
        exact ih hrest (Change.forall_mem_on hc hchange)
  exact hrun h fun field hfield => absurd hfield List.not_mem_nil

end Context

end PartProgram
