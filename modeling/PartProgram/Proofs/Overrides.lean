/-
Overrides compose.

Reading settings loses what was given: a unit is trimmed, a distance mode that is not known
falls back, a position that was left open is filled in from the clearance.  An override
still comes to the same as giving everything at once, because it does not start from what was
read.  It starts from the settings as they were given and reads them again.

So the law is one about settings.  Changing them one map after another is changing them by
the maps put together, and what a setting is in the end is what the last map that has it says.
Everything else is read off this: a position is open in the end or it is not, and the strict
policy, once it is turned on, judges the last word on each setting.
-/
import PartProgram.Proofs.Findings
import PartProgram.Proofs.JobSettings

namespace PartProgram

namespace Fields

/-- Fields that change a configuration: a name comes once, and it is that of a setting. -/
structure Known (f : Fields) : Prop where
  nodup : f.names.Nodup
  settings : ∀ k ∈ f.names, (Setting.ofKey? k).isSome = true

namespace Known

variable {f changes : Fields}

theorem strangers (h : f.Known) : f.strangers = [] := by
  refine List.filter_eq_nil_iff.mpr ?_
  intro k hk hstrange
  have hsome := h.settings k hk
  rw [Option.isNone_iff_eq_none.mp hstrange] at hsome
  cases hsome

theorem putAll (hf : f.Known) (hchanges : changes.Known) : (f.putAll changes).Known where
  nodup := nodup_putAll hf.nodup changes
  settings := by
    intro k hk
    have hnone : (f.putAll changes).strangers = [] := by
      rw [strangers_putAll hchanges.nodup, hf.strangers, hchanges.strangers, List.append_nil]
      intro n hn hstrange
      have hsome := hchanges.settings n hn
      rw [hstrange] at hsome
      cases hsome
    have hkept := List.filter_eq_nil_iff.mp hnone k hk
    exact Option.isSome_iff_ne_none.mpr (mt Option.isNone_iff_eq_none.mpr hkept)

theorem single (x : Setting) (v : Value) : Known [(x.key, v)] where
  nodup := List.nodup_singleton x.key
  settings := by
    intro k hk
    rw [List.mem_singleton.mp hk, Setting.ofKey?_key]
    rfl

end Known

theorem changes_single (x : Setting) (v : Value) : changes [(x.key, v)] = [(x, v)] := by
  simp [changes, Setting.ofKey?_key]

/-- Under a key there is what the last of some maps that has it says. -/
theorem lookup_foldl_putAll {maps : List Fields} (h : ∀ m ∈ maps, m.Known) (f : Fields) (key : String) :
    (maps.foldl Fields.putAll f).lookup key = (f :: maps).reverse.findSome? (·.lookup key) := by
  induction maps generalizing f with
  | nil => simp
  | cons m rest ih =>
      have hrest : ∀ n ∈ rest, n.Known := fun n hn => h n (List.mem_cons_of_mem m hn)
      rw [List.foldl_cons, ih hrest]
      simp only [List.reverse_cons, List.findSome?_append, List.findSome?_singleton, Option.or_assoc,
        lookup_putAll (h m List.mem_cons_self).nodup]

end Fields

section

variable [DigitLimit]

namespace Config

/-! ### What a configuration is given

A configuration carries its settings as they were given, and these are what an override changes.
So a chain of overrides is one change of settings, as long as no link of it is refused; the
links are judged, but what they make of the settings is not used again.
-/

/-- What a setting was given by the last of some maps that has it, or what stands for it. -/
def lastGiven (maps : List Fields) (x : Setting) : Value :=
  (maps.reverse.findSome? (·.lookup x.key)).getD (Settings.standard x)

/-- Overrides made one after another, up to the first that is refused. -/
def overrideAll (c : Config) (maps : List Fields) : Except ConfigError Config :=
  maps.foldlM (fun c changes => (c.overrideFields changes).1) c

/-- A position of a configuration. -/
def position (c : Config) : Setting → Position
  | .finish => c.finish
  | _ => c.start

variable {f changes : Fields} {c d : Config}

omit [DigitLimit] in
theorem fieldSettings_of_known (h : f.Known) : fieldSettings f = .ok (Settings.standard.change f.changes) := by
  have hnames : ∀ field ∈ f, signature.names.contains field.1 = true := by
    intro field hfield
    obtain ⟨x, hx⟩ := Option.isSome_iff_exists.mp (h.settings field.1 (List.mem_map_of_mem hfield))
    rw [← Setting.key_of_ofKey? hx]
    cases x <;> decide
  have hfind : (f.find? fun field => !signature.names.contains field.1) = none := by
    rw [List.find?_eq_none]
    intro field hfield
    rw [hnames field hfield]
    exact Bool.false_ne_true
  have hcheck : signature.check f = .ok () := by
    unfold Signature.check
    rw [hfind]
    rfl
  rw [fieldSettings, hcheck]
  rfl

theorem ofFields_of_known (h : f.Known) : ofFields f = make (Settings.standard.change f.changes) := by
  rw [ofFields, fieldSettings_of_known h]
  rfl

theorem fieldNotes_of_known (h : f.Known) : fieldNotes f = notes (Settings.standard.change f.changes) := by
  rw [fieldNotes, fieldSettings_of_known h]

theorem overrideFields_of_known (c : Config) (h : changes.Known) : c.overrideFields changes
    = (make (c.given.change changes.changes), notes (c.given.change changes.changes)) := by
  rw [overrideFields, sectionChanges_entries, if_pos h.strangers]
  rfl

theorem make_eq_ok {s : Settings} : make s = .ok c ↔ c.Reads s := by
  rw [make, mapError_eq_ok, ofSettings_eq_ok]

/-- A configuration of fields keeps them as they were given. -/
theorem given_of_ofFields (h : f.Known) (hc : ofFields f = .ok c) : c.given = Settings.standard.change f.changes := by
  rw [ofFields_of_known h] at hc
  exact (make_eq_ok.mp hc).given

/-- An override is what the fields make with the changes among them. -/
theorem overrideFields_eq (hf : f.Known) (hchanges : changes.Known) (hc : ofFields f = .ok c) :
    c.overrideFields changes = (ofFields (f.putAll changes), fieldNotes (f.putAll changes)) := by
  have hput := hf.putAll hchanges
  rw [overrideFields_of_known c hchanges, ofFields_of_known hput, fieldNotes_of_known hput,
    Settings.change_putAll hf.nodup hchanges.nodup, given_of_ofFields hf hc]

/-- Two overrides are one override by both changes. -/
theorem overrideFields_overrideFields {a b : Fields} (ha : a.Known) (hb : b.Known)
    (h : (c.overrideFields a).1 = .ok d) : d.overrideFields b = c.overrideFields (a.putAll b) := by
  have hgiven : d.given = c.given.change a.changes := by
    rw [overrideFields_of_known c ha] at h
    exact (make_eq_ok.mp h).given
  rw [overrideFields_of_known d hb, overrideFields_of_known c (ha.putAll hb), hgiven,
    Settings.change_putAll ha.nodup hb.nodup]

omit [DigitLimit] in
theorem known_foldl_putAll {maps : List Fields} (hf : f.Known) (h : ∀ m ∈ maps, m.Known) :
    (maps.foldl Fields.putAll f).Known := by
  induction maps generalizing f with
  | nil => exact hf
  | cons m rest ih =>
      exact ih (hf.putAll (h m List.mem_cons_self)) (fun n hn => h n (List.mem_cons_of_mem m hn))

/-- A chain of overrides is what the fields make with all the changes among them. -/
theorem ofFields_of_overrideAll {maps : List Fields} (hf : f.Known) (h : ∀ m ∈ maps, m.Known)
    (hc : ofFields f = .ok c) (hd : c.overrideAll maps = .ok d) : ofFields (maps.foldl Fields.putAll f) = .ok d := by
  induction maps generalizing f c with
  | nil =>
      obtain rfl := Except.ok.inj hd
      exact hc
  | cons m rest ih =>
      have hm := h m List.mem_cons_self
      rw [overrideAll, List.foldlM_cons] at hd
      obtain ⟨e, he, hd⟩ := bind_eq_ok.mp hd
      rw [overrideFields_eq hf hm hc] at he
      exact ih (hf.putAll hm) (fun n hn => h n (List.mem_cons_of_mem m hn)) he hd

/-- After a chain of overrides a setting is as it was given last. -/
theorem reads_lastGiven {maps : List Fields} (hf : f.Known) (h : ∀ m ∈ maps, m.Known) (hc : ofFields f = .ok c)
    (hd : c.overrideAll maps = .ok d) : d.Reads (lastGiven (f :: maps)) := by
  have hmade := ofFields_of_overrideAll hf h hc hd
  have hknown := known_foldl_putAll hf h
  have hgiven : Settings.standard.change (maps.foldl Fields.putAll f).changes = lastGiven (f :: maps) := by
    funext x
    rw [Settings.change_fields hknown.nodup, Fields.lookup_foldl_putAll h, lastGiven]
  rw [ofFields_of_known hknown, hgiven] at hmade
  exact make_eq_ok.mp hmade

/-! ### What is read again

The law says what settings come to and not what is read of them.  For those whose reading
depends on others it is read off here: the positions, which may follow the clearance, and all
that the strict policy has not been asked about before it was turned on.
-/

theorem Reads.position {s : Settings} (h : d.Reads s) {x : Setting} (hx : x ∈ [Setting.start, .finish]) :
    readPosition d.strict x d.clearance (s x) = .ok (d.position x) := by
  simp only [List.mem_cons, List.not_mem_nil, or_false] at hx
  rcases hx with rfl | rfl
  · exact h.start
  · exact h.finish

/-- A position that is left open is above the origin, at the clearance. -/
theorem Reads.position_of_open {s : Settings} (h : d.Reads s) {x : Setting} (hx : x ∈ [Setting.start, .finish])
    (hopen : (s x).isNull = true) : d.position x = ⟨.int 0, .int 0, d.clearance⟩ := by
  have hread := h.position hx
  rw [readPosition, if_pos hopen] at hread
  exact (Except.ok.inj hread).symm

/-- A position that is given is what was given. -/
theorem Reads.position_of_given {s : Settings} (h : d.Reads s) {x : Setting} (hx : x ∈ [Setting.start, .finish])
    (hgiven : (s x).isNull = false) : Position.ofValue? (s x) = .ok (d.position x) := by
  have hread := h.position hx
  rw [readPosition, if_neg (by simp [hgiven])] at hread
  cases hp : Position.ofValue? (s x) with
  | error e =>
      rw [hp] at hread
      cases hread
  | ok p =>
      rw [hp] at hread
      obtain ⟨_, -, rfl⟩ := map_eq_ok.mp hread
      rfl

/-- An override of one setting. -/
theorem overrideFields_single (d : Config) (x : Setting) (v : Value) :
    (d.overrideFields [(x.key, v)]).1 = make (d.given.put x v) := by
  rw [overrideFields_of_known d (Fields.Known.single x v), Fields.changes_single]
  rfl

/-- A position that is given does not move with the clearance. -/
theorem position_of_clearance {s : Settings} (h : d.Reads s) {x : Setting} (hx : x ∈ [Setting.start, .finish])
    (hgiven : (s x).isNull = false) {v : Value} {e : Config}
    (he : (d.overrideFields [(Setting.clearance.key, v)]).1 = .ok e) : e.position x = d.position x := by
  rw [overrideFields_single, h.given] at he
  have hkept : s.put .clearance v x = s x := by
    simp only [List.mem_cons, List.not_mem_nil, or_false] at hx
    rcases hx with rfl | rfl <;> rfl
  have hthere := (make_eq_ok.mp he).position_of_given hx (by rw [hkept, hgiven])
  rw [hkept, h.position_of_given hx hgiven] at hthere
  exact (Except.ok.inj hthere).symm

/-- Turned on, the strict policy judges every setting as it was given. -/
theorem answers_strict {s : Settings} (h : d.Reads s) :
    Answers (Setting.judged.findSome? fun x => x.finding? true (s x)) (ofSettings (d.given.put .strict (.bool true))) := by
  rw [h.given]
  exact answers_ofSettings (s.put .strict (.bool true))

theorem exists_strict_iff {s : Settings} (h : d.Reads s) :
    (∃ e, (d.overrideFields [(Setting.strict.key, .bool true)]).1 = .ok e)
      ↔ ∀ x : Setting, x.finding? true (s x) = none := by
  simp only [overrideFields_single, make, mapError_eq_ok]
  rw [(answers_strict h).isOk]
  exact findSome?_judged_eq_none

/-- What it finds first is the error. -/
theorem strict_eq_error {s : Settings} (h : d.Reads s) {e : SettingError}
    (hfound : (Setting.judged.findSome? fun x => x.finding? true (s x)) = some e) :
    (d.overrideFields [(Setting.strict.key, .bool true)]).1 = .error (.setting e) := by
  rw [overrideFields_single, make, (answers_strict h).isError.mpr hfound]
  rfl

/-- What has been read could be written, so the unit is the first to be judged. -/
theorem findSome?_judged_of_reads {s : Settings} (h : d.Reads s) :
    (Setting.judged.findSome? fun x => x.finding? true (s x)) =
      (if !LengthUnit.isKnown (unitText (s .unit)) then some (.unknownUnit (s .unit)) else none).or
        ([Setting.positioning, .feedrate, .clearance, .start, .finish].findSome? fun x => x.finding? true (s x)) := by
  have hname : Setting.name.finding? true (s .name) = none := (answers_readName true _).isOk.mp ⟨_, h.name⟩
  have hwritten : (s .unit).isWritten = true := (readUnit_eq_ok.mp h.unit).1
  rw [Setting.judged, findSome?_cons_or, findSome?_cons_or, hname, Setting.finding?_unit, hwritten]
  rfl

/-- It refuses a unit that was passed over. -/
theorem strict_of_unit {s : Settings} (h : d.Reads s) (hunit : LengthUnit.isKnown (unitText (s .unit)) = false) :
    (d.overrideFields [(Setting.strict.key, .bool true)]).1 = .error (.setting (.unknownUnit (s .unit))) := by
  refine strict_eq_error h ?_
  rw [findSome?_judged_of_reads h, hunit]
  rfl

/-- It refuses a distance mode that fell back. -/
theorem strict_of_mode {s : Settings} (h : d.Reads s) (hunit : LengthUnit.isKnown (unitText (s .unit)) = true)
    {e : UnknownMode} (hopen : isOpen (s .positioning) = false)
    (hmode : DistanceMode.ofValue? (s .positioning) = .error e) :
    (d.overrideFields [(Setting.strict.key, .bool true)]).1 = .error (.setting (.unknownMode e)) := by
  refine strict_eq_error h ?_
  rw [findSome?_judged_of_reads h, hunit, findSome?_cons_or, Setting.finding?_positioning, hopen, hmode]
  rfl

/-- **Overrides compose.**  An override comes to what the fields make with the changes among
them, to the same error and the same notes too, and two overrides to one by both changes.
However long the chain, a position that is open in the end is above the origin at the
clearance of the end, one that is given is what was given last and no clearance moves it, and
the strict policy judges everything as it was given last, the unit and the distance mode first. -/
theorem overrides_compose (hf : f.Known) (hc : ofFields f = .ok c) :
    (∀ a : Fields, a.Known → c.overrideFields a = (ofFields (f.putAll a), fieldNotes (f.putAll a)))
    ∧ (∀ a b : Fields, a.Known → b.Known → ∀ d, (c.overrideFields a).1 = .ok d →
        d.overrideFields b = c.overrideFields (a.putAll b))
    ∧ ∀ maps : List Fields, (∀ m ∈ maps, m.Known) → ∀ d, c.overrideAll maps = .ok d →
        let last := lastGiven (f :: maps)
        (∀ x ∈ [Setting.start, .finish],
          ((last x).isNull = true → d.position x = ⟨.int 0, .int 0, d.clearance⟩)
          ∧ ((last x).isNull = false → Position.ofValue? (last x) = .ok (d.position x)
            ∧ ∀ v e, (d.overrideFields [(Setting.clearance.key, v)]).1 = .ok e → e.position x = d.position x))
        ∧ (LengthUnit.isKnown (unitText (last .unit)) = false →
            (d.overrideFields [(Setting.strict.key, .bool true)]).1 = .error (.setting (.unknownUnit (last .unit))))
        ∧ (LengthUnit.isKnown (unitText (last .unit)) = true → isOpen (last .positioning) = false →
            ∀ e, DistanceMode.ofValue? (last .positioning) = .error e →
              (d.overrideFields [(Setting.strict.key, .bool true)]).1 = .error (.setting (.unknownMode e)))
        ∧ ((∃ e, (d.overrideFields [(Setting.strict.key, .bool true)]).1 = .ok e)
          ↔ ∀ x : Setting, x.finding? true (last x) = none) := by
  refine ⟨?_, ?_, ?_⟩
  · intro a ha
    exact overrideFields_eq hf ha hc
  · intro a b ha hb d hd
    exact overrideFields_overrideFields ha hb hd
  · intro maps hmaps d hd last
    have hread : d.Reads last := reads_lastGiven hf hmaps hc hd
    refine ⟨?_, ?_, ?_, exists_strict_iff hread⟩
    · intro x hx
      refine ⟨hread.position_of_open hx, ?_⟩
      intro hgiven
      refine ⟨hread.position_of_given hx hgiven, ?_⟩
      intro v e he
      exact position_of_clearance hread hx hgiven he
    · exact strict_of_unit hread
    · intro hunit hopen e hmode
      exact strict_of_mode hread hunit hopen hmode

end Config

end

/-- A start that is given and taken back follows the clearance again, and the unit that was
passed over twice is found out by the strict policy. -/
theorem Config.overrides_compose_of_furlong :
    let f : Fields := [("unit", .text "furlong")]
    let maps : List Fields :=
      [[("start", .tuple [.int 1, .int 2])], [("clearance", .int 20)], [("start", .null)]]
    let c : Config := { Config.standard with given := Settings.standard.change f.changes, unit := "furlong" }
    let d : Config := { c with
      given := maps.foldl (fun s m => s.change m.changes) c.given, clearance := .int 20
      start := ⟨.int 0, .int 0, .int 20⟩, finish := ⟨.int 0, .int 0, .int 20⟩ }
    f.Known ∧ ofFields f = .ok c ∧ (∀ m ∈ maps, m.Known) ∧ c.overrideAll maps = .ok d
    ∧ (∀ m ∈ maps, c.overrideFields m = (ofFields (f.putAll m), fieldNotes (f.putAll m)))
    ∧ d.position .start = ⟨.int 0, .int 0, .int 20⟩
    ∧ (d.overrideFields [("strict", .bool true)]).1 = .error (.setting (.unknownUnit (.text "furlong"))) := by
  intro f maps c d
  have hf : f.Known := ⟨by decide, by decide⟩
  have hc : ofFields f = .ok c := by
    unfold c f
    rfl
  have hmaps : ∀ m ∈ maps, m.Known := by
    intro m hm
    simp only [maps, List.mem_cons, List.not_mem_nil, or_false] at hm
    rcases hm with rfl | rfl | rfl <;> exact ⟨by decide, by decide⟩
  have hd : c.overrideAll maps = .ok d := by
    unfold d maps c f
    rfl
  obtain ⟨hone, -, hall⟩ := overrides_compose hf hc
  obtain ⟨hpositions, hunit, -⟩ := hall maps hmaps d hd
  obtain ⟨hopen, -⟩ := hpositions .start List.mem_cons_self
  refine ⟨hf, hc, hmaps, hd, fun m hm => hone m (hmaps m hm), hopen (by rfl), hunit ?_⟩
  decide +kernel

end PartProgram
