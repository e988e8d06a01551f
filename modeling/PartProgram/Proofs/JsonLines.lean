/-
What a line of the journal keeps.

In JSON a record and its context share one object.  The parts of the record are put there first,
the context is pushed on them, and a failure that the record tells of is put there last.  So what a
line says under a name is read off in that order from the end: the failure, else the context, else
the record.

The line can be read back, and nothing is lost on the way from the object to the line.  What is
lost is lost before: a part of the record gives way to a value of the context that has its name,
and such a value gives way to the failure.  A line keeps everything exactly when no value of the
context has the name of a part without being that part.
-/
import PartProgram.Journal.Record
import PartProgram.Proofs.ContextCalls
import PartProgram.Proofs.JsonValues

namespace PartProgram

section

variable [DigitLimit]

/-! ### Fields as JSON has them -/

/-- Fields with their values as JSON has them. -/
def Fields.data (f : Fields) : Fields := f.map fun (name, v) => (name, Json.datum v)

namespace Fields

variable {f : Fields}

section

omit [DigitLimit]

theorem names_data (f : Fields) : f.data.names = f.names := List.map_map

theorem lookup_data (f : Fields) (name : String) : f.data.lookup name = (f.lookup name).map Json.datum := by
  induction f with
  | nil => rfl
  | cons first rest ih =>
      obtain ⟨n, v⟩ := first
      show List.lookup name ((n, Json.datum v) :: data rest) = _
      rw [lookup_cons, lookup_cons, ih]
      split
      · rfl
      · rfl

theorem entryData_entries (f : Fields) : Json.entryData f.entries = f.data.entries := by
  induction f with
  | nil => rfl
  | cons first rest ih =>
      obtain ⟨n, v⟩ := first
      show (Value.text n, Json.datum v) :: Json.entryData (entries rest) = _
      rw [ih]
      rfl

end

theorem holdsEntries_entries (h : ∀ field ∈ f, Json.Holds field.2) : Json.HoldsEntries f.entries := by
  induction f with
  | nil => trivial
  | cons first rest ih =>
      obtain ⟨hfirst, hrest⟩ := List.forall_mem_cons.mp h
      exact ⟨⟨first.1, rfl⟩, hfirst, ih hrest⟩

/-- JSON has the map of fields that name everything once. -/
theorem holds_entries (hnodup : f.names.Nodup) (h : ∀ field ∈ f, Json.Holds field.2) : Json.Holds (.map f.entries) := by
  refine ⟨holdsEntries_entries h, ?_⟩
  have hkeys : f.entries.map (·.1) = f.names.map Value.text := by
    rw [entries, names, List.map_map, List.map_map]
    rfl
  rw [hkeys]
  exact hnodup.map fun _ _ heq => Value.text.inj heq

end Fields

omit [DigitLimit] in
/-- A text is not changed on the way. -/
theorem Json.eq_of_datum_eq_text {v : Value} {s : String} (h : datum v = .text s) : v = .text s := by
  cases v with
  | text t => exact h
  | _ => cases h

namespace Record

variable {r : Record} {c : Context} {s : Stamp} {message line : String}

/-! ### The parts of a record -/

/-- What a record says whether or not it tells of a failure. -/
def ownParts (s : Stamp) (message : String) (r : Record) : Fields :=
  [("t", .text s.longText), ("lvl", .text (levelName r.level)), ("name", .text r.name), ("msg", .text message)]

/-- The failure that a record tells of. -/
def troubleParts (r : Record) : Fields :=
  match r.trouble with
  | some t => [("exc", .text t.text)]
  | none => []

/-- What a record says of itself. -/
def parts (s : Stamp) (message : String) (r : Record) : Fields := r.ownParts s message ++ r.troubleParts

theorem nodup_parts (s : Stamp) (message : String) (r : Record) : (r.parts s message).names.Nodup := by
  unfold parts troubleParts
  cases r.trouble with
  | some t =>
      show ["t", "lvl", "name", "msg", "exc"].Nodup
      decide
  | none =>
      show ["t", "lvl", "name", "msg"].Nodup
      decide

theorem forall_mem_parts {P : Value → Prop} (h : ∀ text, P (.text text)) : ∀ part ∈ r.parts s message, P part.2 := by
  have hown : ∀ part ∈ r.ownParts s message, P part.2 := by
    unfold ownParts
    simp only [List.forall_mem_cons]
    exact ⟨h _, h _, h _, h _, fun part hpart => absurd hpart List.not_mem_nil⟩
  have htrouble : ∀ part ∈ r.troubleParts, P part.2 := by
    unfold troubleParts
    cases r.trouble with
    | some t => exact List.forall_mem_singleton.mpr (h _)
    | none => exact fun part hpart => absurd hpart List.not_mem_nil
  exact fun part hpart => (List.mem_append.mp hpart).elim (hown part) (htrouble part)

/-- Every part of a record is a text. -/
theorem exists_text_of_mem_parts : ∀ part ∈ r.parts s message, ∃ text, part.2 = .text text :=
  forall_mem_parts (P := fun v => ∃ text, v = .text text) fun text => ⟨text, rfl⟩

/-- What a part is, is not changed by JSON. -/
theorem datum_part {part : String × Value} (h : part ∈ r.parts s message) : Json.datum part.2 = part.2 := by
  obtain ⟨text, htext⟩ := exists_text_of_mem_parts part h
  rw [htext]
  rfl

/-! ### The object of a line

The object is put together by pushing one part upon another, and what is pushed later takes the
place of what has its name.  So the object under a name is decided from the end: by the failure,
the context and the record, in this order.
-/

theorem fields_eq (c : Context) (s : Stamp) (message : String) (r : Record) :
    r.fields c s message = Context.push (Context.push (r.ownParts s message) c) r.troubleParts := by
  unfold fields troubleParts
  cases r.trouble with
  | some t => rfl
  | none => rfl

/-- **What an object says under a name**: the failure, else the context, else the record. -/
theorem lookup_fields (hc : (Fields.names c).Nodup) (s : Stamp) (message : String) (r : Record) (name : String) :
    (r.fields c s message).lookup name
      = (r.troubleParts.lookup name).or ((c.lookup name).or ((r.ownParts s message).lookup name)) := by
  have htrouble : (Fields.names r.troubleParts).Nodup :=
    (nodup_parts s message r).sublist ((List.sublist_append_right _ _).map _)
  rw [fields_eq, Context.lookup_push htrouble, Context.lookup_push hc]

theorem nodup_fields (c : Context) (s : Stamp) (message : String) (r : Record) :
    (Fields.names (r.fields c s message)).Nodup := by
  have hown : (Fields.names (r.ownParts s message)).Nodup :=
    (nodup_parts s message r).sublist ((List.sublist_append_left _ _).map _)
  rw [fields_eq]
  exact Context.nodup_push (Context.nodup_push hown c) _

theorem holds_fields (hc : ∀ field ∈ c, Json.Holds field.2) (s : Stamp) (message : String) (r : Record) :
    ∀ field ∈ r.fields c s message, Json.Holds field.2 := by
  have hparts : ∀ part ∈ r.parts s message, Json.Holds part.2 := forall_mem_parts fun _ => trivial
  intro field hfield
  rw [fields_eq, Context.push_eq, Context.push_eq] at hfield
  rcases Fields.mem_putAll hfield with hmem | htrouble
  · rcases Fields.mem_putAll hmem with hown | hcontext
    · exact hparts field (List.mem_append_left _ hown)
    · exact hc field hcontext
  · exact hparts field (List.mem_append_right _ htrouble)

theorem jsonText_eq (hs : r.created.stamp = .ok s) (hmessage : r.message = .ok message) :
    r.jsonText c = (Json.text (.map (Fields.entries (r.fields c s message)))).mapError .json := by
  rw [jsonText, hs, hmessage]
  rfl

/-- A line is there as soon as the moment and the message can be written, and it is read as the object. -/
theorem read_jsonText (hc : ∀ field ∈ c, Json.Holds field.2) (hs : r.created.stamp = .ok s)
    (hmessage : r.message = .ok message) : ∃ line, r.jsonText c = .ok line ∧ Json.IsAscii line
      ∧ Json.read line = some (.map (Fields.data (r.fields c s message)).entries) := by
  have hholds := Fields.holds_entries (nodup_fields c s message r) (holds_fields hc s message r)
  obtain ⟨line, hline, hascii, hread⟩ := Json.read_text hholds
  refine ⟨line, ?_, hascii, ?_⟩
  · rw [jsonText_eq hs hmessage, hline]
    rfl
  · rw [hread, Json.datum, Fields.entryData_entries]

theorem of_jsonText (h : r.jsonText c = .ok line) :
    ∃ s message, r.created.stamp = .ok s ∧ r.message = .ok message := by
  unfold jsonText at h
  cases hs : r.created.stamp with
  | error e =>
      rw [hs] at h
      cases h
  | ok s =>
      cases hmessage : r.message with
      | error f =>
          rw [hs, hmessage] at h
          cases h
      | ok message => exact ⟨s, message, rfl, rfl⟩

/-! ### What a line keeps

Something is lost where two parts have one name and different values, and nowhere else.  The
parts of a record are texts, which JSON does not change, so it does not matter whether the
values are compared before the line is written or after it was read.
-/

/-- An object holds the parts of a record and all of a context. -/
structure Kept (c : Context) (s : Stamp) (message : String) (r : Record) (o : Fields) : Prop where
  parts : ∀ part ∈ r.parts s message, o.lookup part.1 = some part.2
  context : ∀ field ∈ c, o.lookup field.1 = some (Json.datum field.2)

/-- A part is in the object where the context has nothing else under its name. -/
theorem lookup_fields_of_mem_parts (hc : (Fields.names c).Nodup) {part : String × Value}
    (hpart : part ∈ r.parts s message) (hsame : ∀ v, c.lookup part.1 = some v → v = part.2) :
    (r.fields c s message).lookup part.1 = some part.2 := by
  have hsaid : ((r.ownParts s message).lookup part.1).or (r.troubleParts.lookup part.1) = some part.2 :=
    List.lookup_append.symm.trans (Fields.lookup_of_mem (nodup_parts s message r) hpart)
  rw [lookup_fields hc]
  cases htrouble : r.troubleParts.lookup part.1 with
  | some w =>
      have hw := List.mem_append_right (r.ownParts s message) (Fields.mem_of_lookup htrouble)
      have hlast := Fields.lookup_of_mem (nodup_parts s message r) hw
      exact hlast.symm.trans (Fields.lookup_of_mem (nodup_parts s message r) hpart)
  | none =>
      rw [htrouble, Option.or_none] at hsaid
      rw [Option.none_or, hsaid]
      cases hcontext : c.lookup part.1 with
      | some v => rw [hsame v hcontext, Option.some_or]
      | none => rfl

/-- A value of the context is in the object unless a failure has its name and is something else. -/
theorem lookup_fields_of_mem_context (hc : (Fields.names c).Nodup) {field : String × Value} (hfield : field ∈ c)
    (hsame : ∀ w, r.troubleParts.lookup field.1 = some w → field.2 = w) :
    (r.fields c s message).lookup field.1 = some field.2 := by
  rw [lookup_fields hc, Fields.lookup_of_mem hc hfield]
  cases htrouble : r.troubleParts.lookup field.1 with
  | some w => rw [hsame w htrouble, Option.some_or]
  | none => rfl

/-- Nothing is lost exactly when no value of the context has the name of a part without being that part. -/
theorem kept_iff (hc : (Fields.names c).Nodup) (s : Stamp) (message : String) (r : Record) :
    r.Kept c s message (Fields.data (r.fields c s message))
      ↔ ∀ part ∈ r.parts s message, ∀ v, c.lookup part.1 = some v → v = part.2 := by
  constructor
  · intro hkept part hpart v hv
    obtain ⟨text, htext⟩ := exists_text_of_mem_parts part hpart
    have hsaid := hkept.parts part hpart
    rw [hkept.context (part.1, v) (Fields.mem_of_lookup hv), htext] at hsaid
    rw [htext]
    exact Json.eq_of_datum_eq_text (Option.some.inj hsaid)
  · intro hsame
    refine ⟨fun part hpart => ?_, fun field hfield => ?_⟩
    · rw [Fields.lookup_data, lookup_fields_of_mem_parts hc hpart (hsame part hpart), Option.map_some, datum_part hpart]
    · have hfailure (w : Value) (hw : r.troubleParts.lookup field.1 = some w) : field.2 = w :=
        hsame (field.1, w) (List.mem_append_right _ (Fields.mem_of_lookup hw)) field.2 (Fields.lookup_of_mem hc hfield)
      rw [Fields.lookup_data, lookup_fields_of_mem_context hc hfield hfailure, Option.map_some]

/-- **What a line of JSON says.**  Whatever values that JSON has were pushed on the context and whatever was popped from
it, a record whose moment and message can be written has a line, of printable ASCII, and the line is read as an object
that names everything once: under each name stands the failure that the record tells of, else the value of the context,
else what the record says of itself.  So all parts of the record and the whole context are in it exactly when no value of
the context has the name of a part without being that part. -/
theorem jsonText_of_reached (r : Record) {changes : List Context.Change}
    (h : ∀ change ∈ changes, change.Pushes Json.Holds) :
    ((∃ line, r.jsonText (Context.reached changes) = .ok line)
        ↔ ∃ s message, r.created.stamp = .ok s ∧ r.message = .ok message)
      ∧ ∀ s message line, r.created.stamp = .ok s → r.message = .ok message →
        r.jsonText (Context.reached changes) = .ok line →
        Json.IsAscii line ∧ ∃ o : Fields, Json.read line = some (.map o.entries) ∧ o.names.Nodup
          ∧ (∀ name, o.lookup name = ((r.troubleParts.lookup name).or
              (((Context.reached changes).lookup name).or ((r.ownParts s message).lookup name))).map Json.datum)
          ∧ (r.Kept (Context.reached changes) s message o
              ↔ ∀ part ∈ r.parts s message, ∀ v, (Context.reached changes).lookup part.1 = some v → v = part.2) := by
  have hnodup := Context.nodup_reached changes
  have hholds := Context.forall_mem_reached h
  constructor
  · constructor
    · rintro ⟨line, hline⟩
      exact of_jsonText hline
    · rintro ⟨s, message, hs, hmessage⟩
      obtain ⟨line, hline, -⟩ := read_jsonText hholds hs hmessage
      exact ⟨line, hline⟩
  · intro s message line hs hmessage hline
    obtain ⟨line', hline', hascii, hread⟩ := read_jsonText hholds hs hmessage
    obtain rfl : line' = line := Except.ok.inj (hline'.symm.trans hline)
    refine ⟨hascii, Fields.data (r.fields (Context.reached changes) s message), hread, ?_, ?_, kept_iff hnodup s message r⟩
    · rw [Fields.names_data]
      exact nodup_fields _ s message r
    · intro name
      rw [Fields.lookup_data, lookup_fields hnodup]

end Record

end

/-- A value that was pushed as `msg` takes the place of the message. -/
theorem Record.jsonText_of_reached_of_msg :
    let changes : List Context.Change := [.push [("msg", .text "x")]]
    let r : Record := ⟨⟨0⟩, 20, "n", "a", [], none⟩
    let s : Stamp := ⟨1970, 1, 1, 0, 0, 0, 0⟩
    (∀ change ∈ changes, change.Pushes Json.Holds)
      ∧ r.created.stamp = .ok s
      ∧ ∃ line, ∃ o : Fields, r.jsonText (Context.reached changes) = .ok line ∧ Json.read line = some (.map o.entries)
        ∧ o.lookup "msg" = some (.text "x") ∧ ¬ r.Kept (Context.reached changes) s "a" o := by
  intro changes r s
  have hpushes : ∀ change ∈ changes, change.Pushes Json.Holds :=
    List.forall_mem_singleton.mpr (List.forall_mem_singleton.mpr trivial)
  have hs : r.created.stamp = .ok s := by decide +kernel
  obtain ⟨hline, hsays⟩ := jsonText_of_reached r hpushes
  obtain ⟨line, hline⟩ := hline.mpr ⟨s, "a", hs, rfl⟩
  obtain ⟨-, o, hread, -, hlookup, hkept⟩ := hsays s "a" line hs rfl hline
  refine ⟨hpushes, hs, line, o, hline, hread, hlookup "msg", fun hall => ?_⟩
  have hmsg : ("msg", .text "a") ∈ r.parts s "a" := by simp [parts, ownParts, r]
  have hsame : "x" = "a" := Value.text.inj (hkept.mp hall _ hmsg (.text "x") rfl)
  exact absurd hsame (by decide)

end PartProgram
