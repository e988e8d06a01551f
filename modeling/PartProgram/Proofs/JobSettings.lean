/-
Where the settings of a program are written.

The settings of a job can stand in the job itself or in the configuration that it falls back
on, and changes are made to either.  In the job they are made to the map of settings before
it is read; on a fallback they are made to the settings as it was given them, and everything
is read again.  These come to the same because a configuration keeps all that it was given:
after changes a setting is what the changes say of it, or what the map said, or what stands
for it where neither says anything, and it does not matter at which point the three are put
together.  Keys that are no settings can only come from the changes, and are complained about
in the same words.
-/
import Mathlib.Data.List.Nodup
import PartProgram.Command.Failure
import PartProgram.Operation.Generator
import PartProgram.Proofs.Policy

namespace PartProgram

/-! ### Fields as maps

Settings are kept in the order in which they were given, since messages show it.  For what they
are read as the order does not matter as long as no name comes twice, and then what a name
stands for after changes is known from the two lookups.
-/

/-- A name keeps its place, and a new one goes to the end. -/
theorem Field.map_fst_putNamed {α : Type} (name : String) (a : α) (named : List (String × α)) :
    (putNamed name a named).map (·.1)
      = if name ∈ named.map (·.1) then named.map (·.1) else named.map (·.1) ++ [name] := by
  induction named with
  | nil => rfl
  | cons first rest ih =>
      obtain ⟨n, b⟩ := first
      by_cases h : n = name
      · simp [putNamed, h]
      · have hname : ¬ name = n := fun e => h e.symm
        rw [putNamed, if_neg h, List.map_cons, List.map_cons, ih]
        by_cases hrest : name ∈ rest.map (·.1)
        · rw [if_pos hrest, if_pos (List.mem_cons_of_mem n hrest)]
        · rw [if_neg hrest, if_neg (by simp [hname, hrest]), List.cons_append]

theorem Field.putNamed_of_not_mem {α : Type} {name : String} {named : List (String × α)} (h : name ∉ named.map (·.1)) (a : α) :
    putNamed name a named = named ++ [(name, a)] := by
  induction named with
  | nil => rfl
  | cons first rest ih =>
      rw [List.map_cons, List.mem_cons, not_or] at h
      rw [putNamed, if_neg (Ne.symm h.1), ih h.2, List.cons_append]

/-- Different names are put together as they are. -/
theorem Field.putAll_of_nodup {α : Type} {named all : List (String × α)} (h : ((all ++ named).map (·.1)).Nodup) :
    named.foldl (fun all (s, a) => putNamed s a all) all = all ++ named := by
  induction named generalizing all with
  | nil => exact (List.append_nil all).symm
  | cons first rest ih =>
      obtain ⟨n, a⟩ := first
      have hfirst : n ∉ all.map (·.1) := by
        rw [List.map_append, List.map_cons] at h
        exact fun hmem => (List.nodup_append.mp h).2.2 _ hmem _ List.mem_cons_self rfl
      have happend : all ++ (n, a) :: rest = all ++ [(n, a)] ++ rest := by simp
      rw [List.foldl_cons]
      dsimp only
      rw [putNamed_of_not_mem hfirst, ih (happend ▸ h), happend]

namespace Fields

/-- The names of the fields. -/
def names (f : Fields) : List String := f.map (·.1)

/-- The fields with others put among them, one after another. -/
def putAll (f changes : Fields) : Fields := changes.foldl (fun f c => Field.putNamed c.1 c.2 f) f

theorem putEntry_entries (k : String) (v : Value) (f : Fields) :
    Value.putEntry (.text k) v f.entries = Fields.entries (Field.putNamed k v f) := by
  induction f with
  | nil => rfl
  | cons first rest ih =>
      obtain ⟨n, w⟩ := first
      have hequal : Value.equal (.text n) (.text k) = (n == k) := by simp only [Value.equal]
      unfold entries at ih ⊢
      rw [List.map_cons, Value.putEntry, hequal, Field.putNamed]
      by_cases h : n = k
      · rw [if_pos (beq_iff_eq.mpr h), if_pos h, List.map_cons]
      · rw [if_neg (mt beq_iff_eq.mp h), if_neg h, List.map_cons, ih]

theorem putAll_entries (f changes : Fields) :
    changes.foldl (fun es c => Value.putEntry (.text c.1) c.2 es) f.entries = (f.putAll changes).entries := by
  induction changes generalizing f with
  | nil => rfl
  | cons c rest ih =>
      rw [List.foldl_cons, putEntry_entries, ih]
      rfl

theorem names_putNamed (k : String) (v : Value) (f : Fields) :
    names (Field.putNamed k v f) = if k ∈ f.names then f.names else f.names ++ [k] :=
  Field.map_fst_putNamed k v f

theorem nodup_putNamed {f : Fields} (h : f.names.Nodup) (k : String) (v : Value) :
    (names (Field.putNamed k v f)).Nodup := by
  rw [names_putNamed]
  by_cases hk : k ∈ f.names
  · rwa [if_pos hk]
  · rw [if_neg hk]
    exact List.nodup_append.mpr ⟨h, List.nodup_singleton k, fun a ha b hb hab =>
      hk (List.mem_singleton.mp hb ▸ hab ▸ ha)⟩

theorem nodup_putAll {f : Fields} (h : f.names.Nodup) (changes : Fields) : (f.putAll changes).names.Nodup := by
  induction changes generalizing f with
  | nil => exact h
  | cons c rest ih => exact ih (nodup_putNamed h c.1 c.2)

theorem lookup_cons (n key : String) (v : Value) (f : Fields) :
    List.lookup key ((n, v) :: f) = if key = n then some v else f.lookup key := by
  rw [List.lookup_cons]
  by_cases h : key = n
  · rw [if_pos h, beq_iff_eq.mpr h]
  · rw [if_neg h, beq_eq_false_iff_ne.mpr h]

theorem lookup_putNamed (k key : String) (v : Value) (f : Fields) :
    (Field.putNamed k v f).lookup key = if key = k then some v else f.lookup key := by
  induction f with
  | nil => rw [Field.putNamed, lookup_cons, List.lookup_nil]
  | cons first rest ih =>
      obtain ⟨n, w⟩ := first
      by_cases h : n = k
      · subst h
        rw [Field.putNamed, if_pos rfl, lookup_cons, lookup_cons]
        by_cases hkey : key = n
        · rw [if_pos hkey, if_pos hkey]
        · rw [if_neg hkey, if_neg hkey, if_neg hkey]
      · rw [Field.putNamed, if_neg h, lookup_cons, lookup_cons, ih]
        by_cases hkey : key = n
        · have hne : ¬ key = k := fun e => h (hkey.symm.trans e)
          rw [if_pos hkey, if_neg hne, if_pos hkey]
        · rw [if_neg hkey, if_neg hkey]

theorem lookup_eq_none {f : Fields} {key : String} (h : key ∉ f.names) : f.lookup key = none := by
  rw [List.lookup_eq_none_iff]
  intro c hc
  have hne : key ≠ c.1 := fun e => h (e ▸ List.mem_map_of_mem hc)
  simpa using hne

/-- After changes a field is what they say of it, or what it was. -/
theorem lookup_putAll {changes : Fields} (h : changes.names.Nodup) (f : Fields) (key : String) :
    (f.putAll changes).lookup key = (changes.lookup key).or (f.lookup key) := by
  induction changes generalizing f with
  | nil => rfl
  | cons c rest ih =>
      obtain ⟨k, v⟩ := c
      obtain ⟨hk, hrest⟩ := List.nodup_cons.mp h
      show (putAll (Field.putNamed k v f) rest).lookup key = _
      rw [ih hrest, lookup_putNamed, lookup_cons]
      by_cases hkey : key = k
      · rw [if_pos hkey, if_pos hkey, hkey, lookup_eq_none hk]
        rfl
      · rw [if_neg hkey, if_neg hkey]

/-! ### Fields as settings -/

/-- The names that are no settings, in the order in which they are given. -/
def strangers (f : Fields) : List String := f.names.filter fun k => (Setting.ofKey? k).isNone

/-- What the fields change, as far as they are settings. -/
def changes (f : Fields) : Changes := f.filterMap fun (k, v) => (Setting.ofKey? k).map fun s => (s, v)

theorem strangers_putNamed {f : Fields} {k : String} (v : Value)
    (h : Setting.ofKey? k = none → k ∉ f.names) :
    strangers (Field.putNamed k v f) = f.strangers ++ [k].filter fun k => (Setting.ofKey? k).isNone := by
  unfold strangers
  rw [names_putNamed]
  by_cases hk : k ∈ f.names
  · have hsome : (Setting.ofKey? k).isNone = false := by
      cases hs : Setting.ofKey? k with
      | none => exact absurd hk (h hs)
      | some s => rfl
    simp [hk, hsome]
  · rw [if_neg hk, List.filter_append]

/-- Where all fields are settings, the strangers among the changed ones are those of the changes. -/
theorem strangers_putAll {changes : Fields} (hc : changes.names.Nodup) {f : Fields}
    (h : ∀ k ∈ changes.names, Setting.ofKey? k = none → k ∉ f.names) :
    (f.putAll changes).strangers = f.strangers ++ changes.strangers := by
  induction changes generalizing f with
  | nil => exact (List.append_nil _).symm
  | cons c rest ih =>
      obtain ⟨k, v⟩ := c
      obtain ⟨hk, hrest⟩ := List.nodup_cons.mp hc
      have hput := strangers_putNamed v (h k List.mem_cons_self)
      have hlater : ∀ n ∈ names rest, Setting.ofKey? n = none → n ∉ names (Field.putNamed k v f) := by
        intro n hn hstrange
        have hf := h n (List.mem_cons_of_mem k hn) hstrange
        rw [names_putNamed]
        split
        · exact hf
        · intro hmem
          rcases List.mem_append.mp hmem with hmem | hmem
          · exact hf hmem
          · exact hk (List.mem_singleton.mp hmem ▸ hn)
      show (putAll (Field.putNamed k v f) rest).strangers = _
      rw [ih hrest hlater, hput, List.append_assoc]
      exact congrArg (f.strangers ++ ·) (List.filter_append ..).symm

end Fields

namespace Setting

theorem ofKey?_key (s : Setting) : ofKey? s.key = some s := by cases s <;> rfl

theorem key_of_ofKey? {k : String} {s : Setting} (h : ofKey? k = some s) : s.key = k := by
  have hk := List.find?_some h
  simpa using hk

end Setting

namespace Settings

theorem change_cons (s : Settings) (x : Setting) (v : Value) (rest : Changes) :
    s.change ((x, v) :: rest) = (s.put x v).change rest := rfl

/-- After the changes that fields make, a setting is what stands under its key, or what it was. -/
theorem change_fields {f : Fields} (h : f.names.Nodup) (s : Settings) (x : Setting) :
    s.change f.changes x = (f.lookup x.key).getD (s x) := by
  induction f generalizing s with
  | nil => rfl
  | cons first rest ih =>
      obtain ⟨k, v⟩ := first
      obtain ⟨hk, hrest⟩ := List.nodup_cons.mp h
      rw [Fields.lookup_cons]
      cases hs : Setting.ofKey? k with
      | none =>
          have hne : ¬ x.key = k := by
            intro e
            rw [← e, Setting.ofKey?_key] at hs
            cases hs
          have hskip : Fields.changes ((k, v) :: rest) = Fields.changes rest := by
            simp [Fields.changes, hs]
          rw [hskip, ih hrest, if_neg hne]
      | some y =>
          have hput : Fields.changes ((k, v) :: rest) = (y, v) :: Fields.changes rest := by
            simp [Fields.changes, hs]
          have hkey := Setting.key_of_ofKey? hs
          rw [hput, change_cons, ih hrest]
          by_cases hx : x = y
          · subst hx
            rw [if_pos hkey, hkey, Fields.lookup_eq_none hk, put, if_pos rfl]
            rfl
          · have hne : ¬ x.key = k := by
              intro e
              rw [← e, Setting.ofKey?_key] at hs
              exact hx (Option.some.inj hs)
            rw [if_neg hne, put, if_neg hx]

/-- Changes among the fields are changes after the fields. -/
theorem change_putAll {f changes : Fields} (hf : f.names.Nodup) (hchanges : changes.names.Nodup) (s : Settings) :
    s.change (f.putAll changes).changes = (s.change f.changes).change changes.changes := by
  funext x
  rw [change_fields (Fields.nodup_putAll hf changes), Fields.lookup_putAll hchanges, change_fields hchanges,
    change_fields hf]
  cases changes.lookup x.key with
  | none => rfl
  | some v => rfl

end Settings

/-! ### Sections under changes

A section is refused for its strangers before any setting of it is read, and the message names
all of them.  Changes made to a section bring their own strangers in at the end.  A
configuration has none, since it was made of a section without any, and so the message is the
same on both ways.
-/

namespace Config

theorem sectionChanges_entries (f : Fields) :
    sectionChanges f.entries =
      if f.strangers = [] then .ok f.changes else .error (unknownKeysError (f.strangers.map .text)) := by
  have hunknown : (f.entries.filter fun e => (keySetting? e.1).isNone).map (·.1) = f.strangers.map .text := by
    simp [Fields.entries, Fields.strangers, Fields.names, List.filter_map, Function.comp_def, keySetting?]
  have hknown : (f.entries.filterMap fun e => (keySetting? e.1).map fun s => (s, e.2)) = f.changes := by
    simp [Fields.entries, Fields.changes, List.filterMap_map, keySetting?]
  unfold sectionChanges
  cases hfilter : f.entries.filter fun e => (keySetting? e.1).isNone with
  | nil =>
      rw [hfilter, List.map_nil, eq_comm, List.map_eq_nil_iff] at hunknown
      rw [if_pos hunknown]
      exact congrArg Except.ok hknown
  | cons e rest =>
      rw [hfilter] at hunknown
      have hstrange : f.strangers ≠ [] := by
        intro hnil
        rw [hnil] at hunknown
        cases hunknown
      rw [if_neg hstrange, ← hunknown]

variable [DigitLimit]

/-- A unit that is refused is refused before anything else is read but the name. -/
theorem ofSettings_of_unit_error {s : Settings} {name : Option String} {e : SettingError}
    (hname : readName (s .name) = .ok name) (h : readUnit (s .strict).isTrue (s .unit) = .error e) :
    ofSettings s = .error e := by
  unfold ofSettings
  simp only [hname, h]
  rfl

/-- What a section of entries makes: nothing where one of them is no setting. -/
theorem ofSection_map (entries : List (Value × Value)) :
    ofSection (.map entries) = (sectionChanges entries).bind fun changes => make (Settings.standard.change changes) := by
  cases entries with
  | nil => rfl
  | cons first rest =>
      show ((sectionChanges (first :: rest) >>= fun changes => pure (Settings.standard.change changes)) >>= make) = _
      cases sectionChanges (first :: rest) with
      | error e => rfl
      | ok changes => rfl

/-- A configuration of fields keeps them as they were given, and all of them are settings. -/
theorem fields_of_ofSection {f : Fields} {c : Config} (h : ofSection (.map f.entries) = .ok c) :
    f.strangers = [] ∧ c.given = Settings.standard.change f.changes := by
  rw [ofSection_map, sectionChanges_entries] at h
  by_cases hknown : f.strangers = []
  · rw [if_pos hknown] at h
    exact ⟨hknown, (ofSettings_eq_ok.mp (mapError_eq_ok.mp h)).given⟩
  · rw [if_neg hknown] at h
    cases h

/-- Changes may be made to the fields or to the configuration that they make. -/
theorem ofSection_putAll {f changes : Fields} (hf : f.names.Nodup) (hchanges : changes.names.Nodup) {c : Config}
    (h : ofSection (.map f.entries) = .ok c) :
    ofSection (.map (f.putAll changes).entries) = (c.overrideFields changes).1 := by
  obtain ⟨hknown, hgiven⟩ := fields_of_ofSection h
  have hstrangers : (f.putAll changes).strangers = changes.strangers := by
    rw [Fields.strangers_putAll hchanges, hknown, List.nil_append]
    intro k _ hstrange hk
    have hmem : k ∈ f.strangers := List.mem_filter.mpr ⟨hk, by rw [hstrange]; rfl⟩
    rw [hknown] at hmem
    cases hmem
  have hsettings : Settings.standard.change (f.putAll changes).changes = c.given.change changes.changes := by
    rw [Settings.change_putAll hf hchanges, hgiven]
  rw [ofSection_map, overrideFields, sectionChanges_entries, sectionChanges_entries, hstrangers]
  by_cases hchanged : changes.strangers = []
  · rw [if_pos hchanged, if_pos hchanged]
    show make (Settings.standard.change (f.putAll changes).changes) = _
    rw [hsettings]
    rfl
  · rw [if_neg hchanged, if_neg hchanged]
    rfl

end Config

section

variable [DigitLimit]

/-! ### Jobs with settings and jobs without -/

namespace Job

/-- The listing of a job under a fallback and changes, its name taken from a source where it has
none of its own. -/
def listing (job : Job) (fallback : Option Config) (changes : Fields) (names : Option NameSource) :
    Except Command.Failure String := do
  let config ← (job.config fallback changes).1.mapError .config
  let ops ← job.operations.mapError .directives
  ((Generator.mk config names).generate ops).1.mapError .program

/-- **Settings in the job or in its fallback.**  A job with settings that make a configuration
and a job that falls back on this configuration have the same configuration under any changes, or
the same fault is found with it; so the same directives have the same listing. -/
theorem config_of_settings_or_fallback {f changes : Fields} (hf : f.names.Nodup) (hchanges : changes.names.Nodup)
    {c : Config} (hc : Config.ofSection (.map f.entries) = .ok c) {own bare : Job} (hown : own.settings = some f)
    (hbare : bare.settings = none) (fallback : Option Config) :
    (own.config fallback changes).1 = (bare.config (some c) changes).1
    ∧ (own.directives = bare.directives →
        ∀ names, own.listing fallback changes names = bare.listing (some c) changes names) := by
  have hconfig : (own.config fallback changes).1 = (bare.config (some c) changes).1 := by
    have hput : changedSettings f changes = .map (f.putAll changes).entries :=
      congrArg Value.map (Fields.putAll_entries f changes)
    simp only [config, hown, hbare, hput, Option.getD_some]
    cases changes with
    | nil => exact hc
    | cons first rest => exact Config.ofSection_putAll hf hchanges hc
  refine ⟨hconfig, ?_⟩
  intro hdirectives names
  rw [listing, listing, hconfig, operations, operations, hdirectives]

end Job

end

/-- A unit that was passed over is brought out by the strict policy, wherever it was written. -/
theorem Job.config_of_settings_or_fallback_of_furlong :
    let f : Fields := [("unit", .text "furlong"), ("clearance", .int 3)]
    let changes : Fields := [("strict", .bool true)]
    let c : Config := { Config.standard with
      given := Settings.standard.change [(.unit, .text "furlong"), (.clearance, .int 3)], unit := "furlong"
      clearance := .int 3, start := ⟨.int 0, .int 0, .int 3⟩, finish := ⟨.int 0, .int 0, .int 3⟩ }
    let own : Job := ⟨knownVersion, some f, []⟩
    let bare : Job := ⟨knownVersion, none, []⟩
    f.names.Nodup ∧ changes.names.Nodup ∧ Config.ofSection (.map f.entries) = .ok c
    ∧ own.settings = some f ∧ bare.settings = none ∧ own.directives = bare.directives
    ∧ (own.config none changes).1 = .error (.setting (.unknownUnit (.text "furlong")))
    ∧ (bare.config (some c) changes).1 = .error (.setting (.unknownUnit (.text "furlong")))
    ∧ ∀ names, own.listing none changes names = bare.listing (some c) changes names := by
  intro f changes c own bare
  have hunit : Config.unitText (.text "furlong") = "furlong" := by decide +kernel
  have hstrange : LengthUnit.isKnown (Config.unitText (.text "furlong")) = false := by decide +kernel
  have hf : f.names.Nodup := by decide
  have hchanges : changes.names.Nodup := by decide
  have hreads : c.Reads c.given := ⟨rfl, rfl, congrArg Except.ok hunit, rfl, rfl, rfl, rfl, rfl, rfl, rfl⟩
  have hc : Config.ofSection (.map f.entries) = .ok c := by
    show (Config.ofSettings c.given).mapError ConfigError.setting = _
    rw [Config.ofSettings_eq_ok.mpr hreads, mapError_ok]
  obtain ⟨hconfig, hlisting⟩ := config_of_settings_or_fallback hf hchanges hc (show own.settings = some f from rfl)
    (show bare.settings = none from rfl) none
  have hread : Config.readUnit true (.text "furlong") = .error (.unknownUnit (.text "furlong")) := by
    simp only [Config.readUnit, Value.isWritten_text, hstrange, Bool.not_true, Bool.not_false, Bool.and_self,
      Bool.false_eq_true, if_false, if_true]
  have hfault : Config.ofSettings (c.given.change [(.strict, .bool true)]) = .error (.unknownUnit (.text "furlong")) :=
    Config.ofSettings_of_unit_error rfl hread
  have herror : (bare.config (some c) changes).1 = .error (.setting (.unknownUnit (.text "furlong"))) := by
    have hsection : Config.sectionChanges changes.entries = .ok [(.strict, .bool true)] := rfl
    simp only [config, bare, changes, Option.getD_some, Config.overrideFields]
    rw [hsection]
    simp only [Config.override, hfault, mapError_error]
    rfl
  exact ⟨hf, hchanges, hc, rfl, rfl, rfl, hconfig.trans herror, herror, hlisting rfl⟩

end PartProgram
