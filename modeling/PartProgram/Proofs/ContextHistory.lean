/-
What a context keeps of its history.

The calls on a context come down to events: a value is put under a name, or names are removed, or
everything is.  A call that fails is no event.  What is in the context can be read off the events
without following them from the start.  A value stands under a name when it was put there last and
the name was not removed since, and a name has its place by the first time it was put there after it
was removed last.

An event changes one end of the history only, so both statements are carried over it by saying what
one more event does to a name: it puts the name, or it removes it, or it leaves it alone.
-/
import Mathlib.Data.List.Induction
import PartProgram.Journal.Record
import PartProgram.Proofs.ContextCalls

namespace PartProgram

namespace Context

/-! ### Events

A call may put several values or remove several names, and whether a pop does anything is only
known when it is made.  Its events are what it turned out to do.  Nothing can fail in a history
of events, and each of them puts a name, removes it or leaves it alone.
-/

/-- What happens to a context. -/
inductive Event where
  /-- A value is put under a name. -/
  | put (name : String) (v : Value)
  /-- Names are removed, as far as they are there. -/
  | remove (names : List String)
  /-- All names are removed. -/
  | clear

namespace Event

/-- Whether the event puts something under the name. -/
def Puts (name : String) : Event → Prop
  | put n _ => n = name
  | remove _ | clear => False

/-- Whether the event removes the name. -/
def Removes (name : String) : Event → Prop
  | put _ _ => False
  | remove names => name ∈ names
  | clear => True

/-- The context after the event. -/
def on (c : Context) : Event → Context
  | put name v => c.put name v
  | remove names => c.pop names
  | clear => []

/-- The names among values; what is no text names nothing. -/
def namesIn : List Value → List String
  | [] => []
  | .text name :: rest => name :: namesIn rest
  | _ :: rest => namesIn rest

/-- The event of a pop: the names in a sequence are removed, and all names where there is no sequence at all. -/
def ofGiven : Value → Event
  | .null => clear
  | given => remove (namesIn (given.items?.getD []))

theorem Puts.exists {name : String} {e : Event} (h : e.Puts name) : ∃ v, e = put name v := by
  cases e with
  | put n v => exact ⟨v, congrArg (put · v) h⟩
  | remove names => cases h
  | clear => cases h

end Event

/-- The events of a call on a context. -/
def Change.events (c : Context) : Change → List Event
  | push fields => fields.map fun (name, v) => .put name v
  | pop given => match c.popGiven given with
    | .ok _ => [.ofGiven given]
    | .error _ => []

/-- The events of calls one after another, on a context. -/
def eventsFrom (c : Context) : List Change → List Event
  | [] => []
  | change :: rest => change.events c ++ eventsFrom (change.on c) rest

/-- The events of calls one after another, on a context with nothing in it. -/
def history (changes : List Change) : List Event := eventsFrom [] changes

/-! ### Names in a history

What is asked of a history always has one form: something was put under the name at some point,
and all events behind that point are of a certain sort.  `PutThen` is this form.  One more event
either is that point or comes behind it, and the statements about names that are held, values
that stand and times of coming in all follow from this one.
-/

/-- After the events `before` the value was put under the name, and all events from then on are of the given sort. -/
def PutThen (Q : Event → Prop) (name : String) (v : Value) (before es : List Event) : Prop :=
  ∃ after, es = before ++ .put name v :: after ∧ ∀ e ∈ after, Q e

/-- The name was put at some time and not removed since. -/
def Held (es : List Event) (name : String) : Prop :=
  ∃ before v, PutThen (fun e => ¬ e.Removes name) name v before es

/-- The value was put under the name last, and the name was not removed since. -/
def Stands (es : List Event) (name : String) (v : Value) : Prop :=
  ∃ before, PutThen (fun e => ¬ e.Puts name ∧ ¬ e.Removes name) name v before es

/-- The event with the number `i` was the first to put the name after the name had been removed last. -/
def Since (es : List Event) (name : String) (i : Nat) : Prop :=
  ∃ before v, PutThen (fun e => ¬ e.Removes name) name v before es ∧ before.length = i ∧ ¬ Held before name

variable {c : Context} {es : List Event} {e : Event} {name : String} {v : Value}

/-- Nothing was put before there was any event. -/
theorem not_putThen_nil {Q : Event → Prop} {before : List Event} : ¬ PutThen Q name v before [] := by
  rintro ⟨after, hsplit, -⟩
  simp at hsplit

/-- **One more event** is the one that puts the value, or it comes after that and is of the sort. -/
theorem putThen_concat {Q : Event → Prop} {before : List Event} :
    PutThen Q name v before (es ++ [e]) ↔ (e = .put name v ∧ before = es) ∨ (PutThen Q name v before es ∧ Q e) := by
  constructor
  · rintro ⟨after, hsplit, hafter⟩
    rcases List.eq_nil_or_concat after with rfl | ⟨rest, last, rfl⟩
    · obtain ⟨hes, he⟩ := List.append_inj' hsplit rfl
      exact Or.inl ⟨List.head_eq_of_cons_eq he, hes.symm⟩
    · rw [List.concat_eq_append] at hsplit hafter
      rw [← List.cons_append, ← List.append_assoc] at hsplit
      obtain ⟨hes, he⟩ := List.append_inj' hsplit rfl
      obtain rfl := List.head_eq_of_cons_eq he
      obtain ⟨hrest, hlast⟩ := List.forall_mem_append.mp hafter
      exact Or.inr ⟨⟨rest, hes, hrest⟩, hlast e List.mem_cons_self⟩
  · rintro (⟨rfl, rfl⟩ | ⟨⟨rest, rfl, hrest⟩, hlast⟩)
    · exact ⟨[], rfl, fun e he => absurd he List.not_mem_nil⟩
    · refine ⟨rest ++ [e], ?_, List.forall_mem_append.mpr ⟨hrest, List.forall_mem_singleton.mpr hlast⟩⟩
      rw [List.append_assoc, List.cons_append]

theorem held_concat : Held (es ++ [e]) name ↔ e.Puts name ∨ Held es name ∧ ¬ e.Removes name := by
  simp only [Held, putThen_concat]
  constructor
  · rintro ⟨before, v, ⟨rfl, -⟩ | ⟨hput, hlast⟩⟩
    · exact Or.inl rfl
    · exact Or.inr ⟨⟨before, v, hput⟩, hlast⟩
  · rintro (hputs | ⟨⟨before, v, hput⟩, hlast⟩)
    · obtain ⟨v, rfl⟩ := hputs.exists
      exact ⟨es, v, Or.inl ⟨rfl, rfl⟩⟩
    · exact ⟨before, v, Or.inr ⟨hput, hlast⟩⟩

theorem stands_concat :
    Stands (es ++ [e]) name v ↔ e = .put name v ∨ Stands es name v ∧ ¬ e.Puts name ∧ ¬ e.Removes name := by
  simp only [Stands, putThen_concat]
  constructor
  · rintro ⟨before, ⟨rfl, -⟩ | ⟨hput, hlast⟩⟩
    · exact Or.inl rfl
    · exact Or.inr ⟨⟨before, hput⟩, hlast⟩
  · rintro (rfl | ⟨⟨before, hput⟩, hlast⟩)
    · exact ⟨es, Or.inl ⟨rfl, rfl⟩⟩
    · exact ⟨before, Or.inr ⟨hput, hlast⟩⟩

theorem since_concat {i : Nat} : Since (es ++ [e]) name i ↔
    (e.Puts name ∧ ¬ Held es name ∧ es.length = i) ∨ Since es name i ∧ ¬ e.Removes name := by
  simp only [Since, putThen_concat]
  constructor
  · rintro ⟨before, v, ⟨rfl, rfl⟩ | ⟨hput, hlast⟩, hlength, hfirst⟩
    · exact Or.inl ⟨rfl, hfirst, hlength⟩
    · exact Or.inr ⟨⟨before, v, hput, hlength, hfirst⟩, hlast⟩
  · rintro (⟨hputs, hfirst, hlength⟩ | ⟨⟨before, v, hput, hlength, hfirst⟩, hlast⟩)
    · obtain ⟨v, rfl⟩ := hputs.exists
      exact ⟨es, v, Or.inl ⟨rfl, rfl⟩, hlength, hfirst⟩
    · exact ⟨before, v, Or.inr ⟨hput, hlast⟩, hlength, hfirst⟩

namespace Since

variable {i : Nat}

/-- A name that came in came in before now. -/
theorem lt_length (h : Since es name i) : i < es.length := by
  obtain ⟨before, v, ⟨after, rfl, -⟩, rfl, -⟩ := h
  rw [List.length_append, List.length_cons]
  omega

theorem held (h : Since es name i) : Held es name := by
  obtain ⟨before, v, hput, -⟩ := h
  exact ⟨before, v, hput⟩

/-- A name that is there keeps its time. -/
theorem of_concat (h : Since (es ++ [e]) name i) (hheld : Held es name) : Since es name i := by
  rcases since_concat.mp h with ⟨-, hfirst, -⟩ | ⟨hsince, -⟩
  · exact absurd hheld hfirst
  · exact hsince

/-- A name that is not there comes in now. -/
theorem eq_length_of_concat (h : Since (es ++ [e]) name i) (hheld : ¬ Held es name) : es.length = i := by
  rcases since_concat.mp h with ⟨-, -, hlength⟩ | ⟨hsince, -⟩
  · exact hlength
  · exact absurd hsince.held hheld

/-- There is one time since when a name has been there. -/
theorem unique {j : Nat} (hi : Since es name i) (hj : Since es name j) : i = j := by
  induction es using List.reverseRecOn with
  | nil => exact absurd hi.lt_length (Nat.not_lt_zero i)
  | append_singleton es e ih =>
      by_cases hheld : Held es name
      · exact ih (hi.of_concat hheld) (hj.of_concat hheld)
      · exact (hi.eq_length_of_concat hheld).symm.trans (hj.eq_length_of_concat hheld)

end Since

/-- A name is there as long as some value stands under it. -/
theorem held_iff_exists_stands : Held es name ↔ ∃ v, Stands es name v := by
  constructor
  · induction es using List.reverseRecOn with
    | nil =>
        rintro ⟨before, v, hput⟩
        exact absurd hput not_putThen_nil
    | append_singleton es e ih =>
        rw [held_concat]
        rintro (hputs | ⟨hheld, hlast⟩)
        · obtain ⟨v, rfl⟩ := hputs.exists
          exact ⟨v, stands_concat.mpr (Or.inl rfl)⟩
        · by_cases hputs : e.Puts name
          · obtain ⟨v, rfl⟩ := hputs.exists
            exact ⟨v, stands_concat.mpr (Or.inl rfl)⟩
          · obtain ⟨v, hv⟩ := ih hheld
            exact ⟨v, stands_concat.mpr (Or.inr ⟨hv, hputs, hlast⟩)⟩
  · rintro ⟨v, before, after, hsplit, hkept⟩
    exact ⟨before, v, after, hsplit, fun e he => (hkept e he).2⟩

/-- A name that is there has been there since some event. -/
theorem Held.exists_since (h : Held es name) : ∃ i, Since es name i := by
  induction es using List.reverseRecOn with
  | nil =>
      obtain ⟨before, v, hput⟩ := h
      exact absurd hput not_putThen_nil
  | append_singleton es e ih =>
      by_cases hheld : Held es name ∧ ¬ e.Removes name
      · obtain ⟨i, hi⟩ := ih hheld.1
        exact ⟨i, since_concat.mpr (Or.inr ⟨hi, hheld.2⟩)⟩
      · have hputs := (held_concat.mp h).resolve_right hheld
        obtain ⟨v, rfl⟩ := hputs.exists
        have hfirst : ¬ Held es name := fun hmem => hheld ⟨hmem, id⟩
        exact ⟨es.length, since_concat.mpr (Or.inl ⟨rfl, hfirst, rfl⟩)⟩

/-! ### What a context shows

The context is compared with the history as it grows at its end.  An event that puts a name
leaves the places of all names as they are, or it adds the name at the end with the greatest
time of all; any other event takes names away and leaves the rest in order.
-/

/-- The context shows what stands after the events, by the time since when it has been there. -/
structure Shows (c : Context) (es : List Event) : Prop where
  stands : ∀ name v, (name, v) ∈ c ↔ Stands es name v
  ordered : (Fields.names c).Pairwise fun a b => ∀ i j, Since es a i → Since es b j → i < j

namespace Shows

theorem nil : Shows [] [] := by
  refine ⟨fun name v => ⟨fun h => absurd h List.not_mem_nil, ?_⟩, List.Pairwise.nil⟩
  rintro ⟨before, hput⟩
  exact absurd hput not_putThen_nil

theorem mem_names (h : c.Shows es) (name : String) : name ∈ Fields.names c ↔ Held es name := by
  rw [held_iff_exists_stands]
  constructor
  · intro hname
    obtain ⟨field, hfield, rfl⟩ := List.mem_map.mp hname
    exact ⟨field.2, (h.stands field.1 field.2).mp hfield⟩
  · rintro ⟨v, hv⟩
    exact List.mem_map_of_mem ((h.stands name v).mpr hv)

/-- Nothing comes in before itself. -/
theorem nodup (h : c.Shows es) : (Fields.names c).Nodup := by
  refine h.ordered.imp_of_mem ?_
  rintro a b ha - hab rfl
  obtain ⟨i, hi⟩ := ((h.mem_names a).mp ha).exists_since
  exact Nat.lt_irrefl i (hab i i hi hi)

theorem put (h : c.Shows es) (name : String) (v : Value) : (c.put name v).Shows (es ++ [.put name v]) := by
  rw [put_eq]
  have hnodup := Fields.nodup_putNamed h.nodup name v
  refine ⟨fun n w => ?_, ?_⟩
  · rw [Fields.mem_iff_lookup hnodup, Fields.lookup_putNamed, stands_concat, ← h.stands, Fields.mem_iff_lookup h.nodup]
    by_cases hname : n = name
    · simp [hname, Event.Puts]
    · have hother : ¬ name = n := Ne.symm hname
      simp [hname, hother, Event.Puts, Event.Removes]
  · have hkept {a : String} {i : Nat} (ha : a ∈ Fields.names c) (hi : Since (es ++ [.put name v]) a i) : Since es a i :=
      hi.of_concat ((h.mem_names a).mp ha)
    have hold : (Fields.names c).Pairwise fun a b =>
        ∀ i j, Since (es ++ [.put name v]) a i → Since (es ++ [.put name v]) b j → i < j :=
      h.ordered.imp_of_mem fun ha hb hab i j hi hj => hab i j (hkept ha hi) (hkept hb hj)
    -- Names that were there keep their time, and a new one comes in now, after all of them.
    rw [Fields.names_putNamed]
    by_cases hname : name ∈ Fields.names c
    · rwa [if_pos hname]
    · rw [if_neg hname]
      refine List.pairwise_append.mpr ⟨hold, List.pairwise_singleton _ _, ?_⟩
      intro a ha b hb i j hi hj
      obtain rfl := List.mem_singleton.mp hb
      have hlast := hj.eq_length_of_concat (mt (h.mem_names b).mpr hname)
      exact hlast ▸ (hkept ha hi).lt_length

/-- What an event leaves of a context is what it does not remove. -/
theorem of_sublist {c' : Context} (h : c.Shows es) (hsub : List.Sublist c' c) (hputs : ∀ name, ¬ e.Puts name)
    (hkept : ∀ field ∈ c, field ∈ c' ↔ ¬ e.Removes field.1) : c'.Shows (es ++ [e]) := by
  refine ⟨fun name v => ?_, ?_⟩
  · rw [stands_concat, ← h.stands]
    constructor
    · intro hmem
      have hold := hsub.subset hmem
      exact Or.inr ⟨hold, hputs name, (hkept _ hold).mp hmem⟩
    · rintro (rfl | ⟨hold, -, hlast⟩)
      · exact absurd rfl (hputs name)
      · exact (hkept _ hold).mpr hlast
  · refine (h.ordered.sublist (hsub.map _)).imp ?_
    intro a b hab i j hi hj
    have hold {n : String} {k : Nat} (hk : Since (es ++ [e]) n k) : Since es n k := by
      rcases since_concat.mp hk with ⟨hput, -, -⟩ | ⟨hsince, -⟩
      · exact absurd hput (hputs n)
      · exact hsince
    exact hab i j (hold hi) (hold hj)

theorem on (h : c.Shows es) (e : Event) : (e.on c).Shows (es ++ [e]) := by
  cases e with
  | put name v => exact h.put name v
  | remove names =>
      refine h.of_sublist List.filter_sublist (fun _ => id) fun field hfield => ?_
      simp [Event.on, pop, Event.Removes, List.mem_filter, hfield]
  | clear =>
      refine h.of_sublist (List.nil_sublist c) (fun _ => id) fun field _ => ?_
      simp [Event.on, Event.Removes]

theorem foldl (es : List Event) : Shows (es.foldl Event.on []) es := by
  induction es using List.reverseRecOn with
  | nil => exact nil
  | append_singleton es e ih =>
      rw [List.foldl_append]
      exact ih.on e

end Shows

/-! ### Calls as events -/

theorem pop_pop (c : Context) (names others : List String) : (c.pop names).pop others = c.pop (names ++ others) := by
  rw [pop, pop, pop, List.filter_filter]
  refine List.filter_congr fun field _ => ?_
  simp [Bool.and_comm]

/-- What a sequence pops is what goes under the names in it. -/
theorem popValues_eq_pop {c' : Context} {items : List Value} (h : popValues items c = .ok c') :
    c' = c.pop (Event.namesIn items) := by
  fun_induction popValues items c with
  | case1 c =>
      obtain rfl := Except.ok.inj h
      exact (List.filter_true c).symm
  | case2 v rest c hempty =>
      obtain rfl := Except.ok.inj h
      rw [List.isEmpty_iff.mp hempty]
      rfl
  | case3 rest c hempty name ih => exact (ih h).trans (pop_pop c [name] _)
  | case4 rest c hempty v htext hfit ih =>
      cases v with
      | text name => exact absurd rfl (htext name)
      | _ => exact ih h
  | case5 => cases h

theorem popGiven_eq_on {c' : Context} {given : Value} (h : c.popGiven given = .ok c') : c' = (Event.ofGiven given).on c := by
  unfold popGiven at h
  split at h
  · exact (Except.ok.inj h).symm
  · rename_i hgiven
    have hevent : Event.ofGiven given = .remove (Event.namesIn (given.items?.getD [])) := by
      cases given with
      | null => exact absurd rfl hgiven
      | _ => rfl
    rw [hevent]
    split at h
    · rename_i items hitems
      cases hpop : popValues items c with
      | error e =>
          rw [hpop] at h
          cases h
      | ok popped =>
          rw [hpop] at h
          obtain rfl := Except.ok.inj h
          rw [hitems]
          exact popValues_eq_pop hpop
    · cases h

/-- A call does what its events do. -/
theorem Change.on_eq_foldl (c : Context) (change : Change) : change.on c = (change.events c).foldl Event.on c := by
  cases change with
  | push fields =>
      rw [events, List.foldl_map]
      rfl
  | pop given =>
      rw [on, events]
      cases hpop : c.popGiven given with
      | ok popped => exact popGiven_eq_on hpop
      | error e => rfl

theorem foldl_on_eq (c : Context) (changes : List Change) :
    changes.foldl Change.on c = (eventsFrom c changes).foldl Event.on c := by
  induction changes generalizing c with
  | nil => rfl
  | cons change rest ih =>
      rw [List.foldl_cons, ih, eventsFrom, List.foldl_append, ← Change.on_eq_foldl]

/-- **The context that calls lead to** shows what stands after their events. -/
theorem shows_reached (changes : List Change) : (reached changes).Shows (history changes) := by
  rw [reached, foldl_on_eq]
  exact Shows.foldl _

/-- What can be popped from every context: all names, or a sequence of values that can be keys. -/
def Poppable (given : Value) : Prop :=
  given = .null ∨ ∃ items, given.items? = some items ∧ ∀ v ∈ items, v.checkKey = .ok ()

theorem exists_popValues_eq_ok {items : List Value} (h : ∀ v ∈ items, v.checkKey = .ok ()) (c : Context) :
    ∃ popped, popValues items c = .ok popped := by
  fun_induction popValues items c with
  | case1 c => exact ⟨c, rfl⟩
  | case2 v rest c hempty => exact ⟨c, rfl⟩
  | case3 rest c hempty name ih => exact ih (List.forall_mem_cons.mp h).2
  | case4 rest c hempty v htext hfit ih => exact ih (List.forall_mem_cons.mp h).2
  | case5 rest c hempty v htext e hunfit =>
      rw [(List.forall_mem_cons.mp h).1] at hunfit
      cases hunfit

theorem Poppable.exists_eq_ok {given : Value} (h : Poppable given) (c : Context) :
    ∃ popped, c.popGiven given = .ok popped := by
  rcases h with rfl | ⟨items, hitems, hfit⟩
  · exact ⟨[], rfl⟩
  · obtain ⟨popped, hpop⟩ := exists_popValues_eq_ok hfit c
    refine ⟨popped, ?_⟩
    cases given with
    | null => cases hitems
    | _ => simp only [popGiven, hitems, hpop, Except.mapError]

end Context

section

variable [DigitLimit]

/-! ### The context on a line -/

/-- A context can be written where each of its values can. -/
theorem Context.checkWritten_eq (c : Context) :
    c.checkWritten = if ∀ field ∈ c, field.2.isWritten = true then .ok () else .error ⟨⟩ := by
  induction c with
  | nil => rfl
  | cons field rest ih =>
      rw [show checkWritten (field :: rest) = (field.2.checkWritten >>= fun _ => checkWritten rest) from rfl, ih,
        Value.checkWritten]
      cases hfield : field.2.isWritten with
      | false =>
          have hno : ¬ ∀ f ∈ field :: rest, f.2.isWritten = true :=
            fun h => Bool.false_ne_true (hfield.symm.trans (h field List.mem_cons_self))
          exact (if_neg hno).symm
      | true =>
          simp only [List.forall_mem_cons, hfield, true_and]
          rfl

namespace Record

variable {r : Record} {s : Stamp} {message : String}

/-- What follows the first line of a record: the failure that it tells of, on lines of its own. -/
def tail (r : Record) : String :=
  match r.trouble with
  | some t => "\n" ++ t.text
  | none => ""

/-- The line for people: the moment, the level, the context where there is one, and the message. -/
theorem humanText_eq (hs : r.created.stamp = .ok s) (hmessage : r.message = .ok message) (colour : Bool) (c : Context) :
    r.humanText colour c = if ∀ field ∈ c, field.2.isWritten = true then
      .ok (s.shortText ++ " | " ++ levelColumn colour r.level ++ " | "
        ++ (if c.isEmpty then "" else c.text ++ " | ") ++ message ++ r.tail)
      else .error (.context ⟨⟩) := by
  have hbar : " | " = " " ++ "|" ++ " " := by decide
  have hend : " |" = " " ++ "|" := by decide
  have hline : " ".intercalate (columns colour c r.level s ++ [message])
      = s.shortText ++ " | " ++ levelColumn colour r.level ++ " | "
        ++ (if c.isEmpty then "" else c.text ++ " | ") ++ message := by
    unfold columns
    by_cases hempty : c.isEmpty = true
    · rw [if_pos hempty, if_pos hempty]
      simp only [List.cons_append, List.nil_append, String.intercalate_cons_cons, String.intercalate_singleton, hbar,
        String.append_assoc, String.empty_append]
    · rw [if_neg hempty, if_neg hempty]
      simp only [List.cons_append, List.nil_append, String.intercalate_cons_cons, String.intercalate_singleton, hbar, hend,
        String.append_assoc]
  unfold humanText tail
  rw [hs, hmessage, ← hline, c.checkWritten_eq]
  split
  · cases r.trouble with
    | some t => exact congrArg Except.ok String.append_assoc
    | none => exact congrArg Except.ok String.append_empty.symm
  · rfl

end Record

namespace Context

/-- **A context and its history.**  Whatever calls there were, the context holds exactly the names that were pushed and
not removed since, each with the value that was pushed last.  A name has been there since one event, the first to put it
after it was removed last, and the names are in the order of these events.  A pop of names or of everything always goes
through.  The line for people lists the context in just this order between the level and the message, and nothing is
between the two where the context is empty; there is no such line where a value of the context cannot be written. -/
theorem fields_of_history (changes : List Change) :
    (∀ name v, (name, v) ∈ reached changes ↔ Stands (history changes) name v)
      ∧ (∀ name, (∃ v, (name, v) ∈ reached changes) ↔ Held (history changes) name)
      ∧ (∀ field ∈ reached changes, ∃! i, Since (history changes) field.1 i)
      ∧ (reached changes).Pairwise
          (fun a b => ∀ i j, Since (history changes) a.1 i → Since (history changes) b.1 j → i < j)
      ∧ (∀ given, Poppable given → ∃ popped, (reached changes).popGiven given = .ok popped)
      ∧ ∀ (r : Record) (colour : Bool) (s : Stamp) (message : String),
          r.created.stamp = .ok s → r.message = .ok message →
          r.humanText colour (reached changes) = if ∀ field ∈ reached changes, field.2.isWritten = true then
            .ok (s.shortText ++ " | " ++ Record.levelColumn colour r.level ++ " | "
              ++ (if (reached changes).isEmpty then ""
                  else " ".intercalate ((reached changes).map fun field => field.1 ++ "=" ++ field.2.plain) ++ " | ")
              ++ message ++ r.tail)
            else .error (.context ⟨⟩) := by
  have hshows := shows_reached changes
  refine ⟨hshows.stands, ?_, ?_, ?_, fun given hgiven => hgiven.exists_eq_ok _, ?_⟩
  · intro name
    rw [held_iff_exists_stands]
    exact exists_congr fun v => hshows.stands name v
  · intro field hfield
    have hheld := (hshows.mem_names field.1).mp (List.mem_map_of_mem hfield)
    obtain ⟨i, hi⟩ := hheld.exists_since
    exact ⟨i, hi, fun j hj => hj.unique hi⟩
  · exact List.pairwise_map.mp hshows.ordered
  · intro r colour s message hs hmessage
    exact Record.humanText_eq hs hmessage colour _

end Context

end

/-- A name keeps its place when it is pushed again, and comes last when it was popped in between. -/
theorem Context.fields_of_history_of_repush :
    let changes : List Change := [.push [("a", .int 1), ("b", .int 2)], .pop (.list [.text "a", .text "c"]),
      .push [("a", .int 3)], .push [("b", .int 4)]]
    let r : Record := ⟨⟨0⟩, 20, "n", "m", [], none⟩
    let s : Stamp := ⟨1970, 1, 1, 0, 0, 0, 0⟩
    r.created.stamp = .ok s ∧ Poppable (.list [.text "a", .text "c"])
      ∧ Stands (history changes) "b" (.int 4) ∧ ¬ Held (history changes) "c"
      ∧ (∃ i j, Since (history changes) "b" i ∧ Since (history changes) "a" j ∧ i < j)
      ∧ (∃ popped, (reached changes).popGiven (.list [.text "a", .text "c"]) = .ok popped)
      ∧ r.humanText false (reached changes) = .ok "1970-01-01T00:00:00.000Z | INFO     | b=4 a=3 | m" := by
  intro changes r s
  have hs : r.created.stamp = .ok s := by decide +kernel
  have hnames : Poppable (.list [.text "a", .text "c"]) := by
    refine Or.inr ⟨_, rfl, ?_⟩
    simp
  have hreached : reached changes = [("b", .int 4), ("a", .int 3)] := rfl
  obtain ⟨hstands, hheld, hsince, hordered, hpops, hline⟩ := fields_of_history changes
  refine ⟨hs, hnames, (hstands "b" (.int 4)).mp ?_, ?_, ?_, hpops _ hnames, ?_⟩
  · rw [hreached]
    exact List.mem_cons_self
  · rw [← hheld "c", hreached]
    simp
  · rw [hreached] at hsince hordered
    obtain ⟨hb, ha⟩ := List.forall_mem_cons.mp hsince
    obtain ⟨i, hi, -⟩ := hb
    obtain ⟨j, hj, -⟩ := List.forall_mem_singleton.mp ha
    exact ⟨i, j, hi, hj, List.rel_of_pairwise_cons hordered List.mem_cons_self i j hi hj⟩
  · rw [hline r false s "m" hs rfl, hreached]
    decide +kernel

end PartProgram
