/-
What the files of a run can hold that it has no words for.

A run reads a job and, where the job has no settings of its own, a configuration.  Whatever
these files hold as text, a listing comes of it or something is refused, and for the most part
it is refused in words.  It is not where a key of the job, or of the configuration's section,
is no text, or where a value is oversize: an integer beyond the range of floats under the
strict policy, and one beyond the limit of digits wherever a text has to be made of it, which
is in the settings or, under the permissive policy, in the opening of the program.

The documents are read by a reader that is given, and all that is asked of it is that it makes
a value of the text of a file or refuses the text as malformed.
-/
import PartProgram.Proofs.Effects
import PartProgram.Proofs.Refusals

namespace PartProgram

/-! ### Files with text

A file is read through the text that it holds and through nothing else, so what is found out
about a file holds as long as its text stays.
-/

section Legible

variable {t t' : FileTree} {p : Path} {text : String}

theorem FileTree.find_of_content (h : t.content p = .ok text) : t.find p = .ok (.file text) := by
  unfold content at h
  split at h
  · rename_i found hfind
    rw [hfind, Except.ok.inj h]
  · cases h
  · cases h

theorem FileTree.look_of_content (h : t.content p = .ok text) : t.look p = .ok true := by
  rw [look, find_of_content h]
  rfl

theorem Yaml.LoadError.isRefusal_ofError (p : Path) (e : Yaml.Error) : (ofError p e).isRefusal = e.isSyntax := by
  cases e <;> rfl

variable [Yaml.Reader]

/-- The reader makes a value of a text, or it refuses the text as malformed. -/
def Yaml.IsRead (text : String) : Prop := ∀ e, Yaml.Reader.read text = .error e → e.isSyntax = true

/-- A file that is there with a text that is read. -/
def Legible (t : FileTree) (p : Path) : Prop := ∃ text, t.content p = .ok text ∧ Yaml.IsRead text

theorem Yaml.loadFile_of_content (h : t.content p = .ok text) :
    Yaml.loadFile t p = (Yaml.Reader.read text).mapError (.ofError p) := by
  rw [loadFile, FileTree.look_of_content h, h]
  rfl

theorem Job.load_of_content (h : t.content p = .ok text) : Job.load t p = (do
    match ← (Yaml.loadFile t p).mapError .file with
    | .map es =>
      match ofEntries (← (Fields.ofEntries es).mapError .fields).entries with
      | .accepted job => return job
      | .refused issues => throw (.invalid p issues)
    | _ => throw (.notMap p)) := by
  rw [load, FileTree.look_of_content h]
  rfl

theorem Config.loadSection_of_content (h : t.content p = .ok text) :
    Config.loadSection t p = (do Config.sectionOf p (← (Yaml.loadFile t p).mapError .file)) := by
  rw [loadSection, FileTree.look_of_content h]
  rfl

/-- A job is read from the text of its file. -/
theorem Job.load_congr (h : t.content p = .ok text) (h' : t'.content p = .ok text) : Job.load t' p = Job.load t p := by
  rw [load_of_content h, load_of_content h', Yaml.loadFile_of_content h, Yaml.loadFile_of_content h']

/-- And so is a configuration. -/
theorem Config.readFile_congr [DigitLimit] (h : t.content p = .ok text) (h' : t'.content p = .ok text) :
    Config.readFile t' (some p) = Config.readFile t (some p) := by
  simp only [readFile, loadSection_of_content h, loadSection_of_content h', Yaml.loadFile_of_content h,
    Yaml.loadFile_of_content h']

theorem Legible.not_fails_loadFile (h : Legible t p) : ¬ Fails (·.isRefusal = false) (Yaml.loadFile t p) := by
  obtain ⟨text, htext, hread⟩ := h
  rw [Yaml.loadFile_of_content htext, fails_mapError]
  rintro ⟨e, he, hkind⟩
  rw [Yaml.LoadError.isRefusal_ofError, hread e he] at hkind
  cases hkind

end Legible

/-! ### Jobs -/

theorem Fields.ofEntries_eq_error {es : List (Value × Value)} :
    (∃ e, Fields.ofEntries es = .error e) ↔ ∃ e ∈ es, e.1.IsOdd := by
  induction es with
  | nil =>
      constructor
      · rintro ⟨e, he⟩
        cases he
      · rintro ⟨e, he, -⟩
        cases he
  | cons first rest ih =>
      obtain ⟨k, v⟩ := first
      rw [List.exists_mem_cons_iff, ← ih]
      unfold ofEntries
      rw [List.mapM_cons]
      by_cases hodd : k.IsOdd
      · refine ⟨fun _ => Or.inl hodd, fun _ => ⟨.nameNotText, ?_⟩⟩
        cases k with
        | text name => exact absurd rfl (hodd name)
        | _ => rfl
      · obtain ⟨name, rfl⟩ := Value.not_isOdd.mp hodd
        rw [or_iff_right hodd]
        cases hrest : List.mapM (m := Except FieldError) _ rest with
        | error e => exact ⟨fun _ => ⟨e, rfl⟩, fun _ => ⟨e, rfl⟩⟩
        | ok fields => exact ⟨fun ⟨_, h⟩ => (by cases h), fun ⟨_, h⟩ => (by cases h)⟩

namespace Job

variable {t : FileTree} {p : Path}

/-- The one thing about a job's file that there are no words for is a key that is no text. -/
theorem fails_load [Yaml.Reader] (h : Legible t p) : Fails (·.isRefusal = false) (load t p) ↔
    ∃ es, Yaml.loadFile t p = .ok (.map es) ∧ ∃ e ∈ es, e.1.IsOdd := by
  obtain ⟨text, htext, -⟩ := id h
  have hfile : ¬ Fails (·.isRefusal = false) ((Yaml.loadFile t p).mapError JobFileError.file) :=
    fun hfails => h.not_fails_loadFile (fails_mapError.mp hfails)
  rw [load_of_content htext, fails_bind, or_iff_right hfile]
  constructor
  · rintro ⟨v, hv, hfails⟩
    cases v with
    | map es =>
        refine ⟨es, mapError_eq_ok.mp hv, Fields.ofEntries_eq_error.mp ?_⟩
        rcases fails_bind.mp hfails with hfields | ⟨fields, -, hjob⟩
        · obtain ⟨e, he, -⟩ := fails_mapError.mp hfields
          exact ⟨e, he⟩
        · split at hjob
          · exact absurd hjob (not_fails_ok _)
          · exact absurd (fails_error.mp hjob) (by simp [JobFileError.isRefusal])
    | _ => exact absurd (fails_error.mp hfails) (by simp [JobFileError.isRefusal])
  · rintro ⟨es, hes, hodd⟩
    obtain ⟨e, he⟩ := Fields.ofEntries_eq_error.mpr hodd
    exact ⟨.map es, mapError_eq_ok.mpr hes, fails_bind.mpr (Or.inl (fails_mapError.mpr ⟨e, he, rfl⟩))⟩

end Job

variable [DigitLimit]

/-! ### Configurations -/

namespace Config

variable {t : FileTree} {p : Path}

/-- What a section holds that there are no words for. -/
def SectionStumbles (es : List (Value × Value)) : Prop :=
  (∃ e ∈ es, e.1.IsOdd) ∨ ∃ changes, sectionChanges es = .ok changes ∧ (Settings.standard.change changes).Oversized

/-- A section is a map, or it is left open like one without entries. -/
theorem sectionOf_eq_ok {v w : Value} (h : sectionOf p v = .ok w) : ofSection w = ofSection (.map []) ∨ ∃ es, w = .map es := by
  unfold sectionOf at h
  split at h
  · cases h
  · split at h
    · cases h
    · obtain rfl := Except.ok.inj h
      exact Or.inl rfl
    · exact Or.inr ⟨_, (Except.ok.inj h).symm⟩
    · cases h
  · cases h

/-- Settings that are not strict are not oversized where their name and their unit can be written. -/
theorem not_oversized_of_permissive {s : Settings} (hs : (s .strict).isTrue = false)
    (h : ∀ x ∈ [Setting.name, .unit], (s x).isWritten = true) : ¬ s.Oversized := by
  intro hlarge
  rcases hlarge.large with ⟨x, hx, hunwritten⟩ | ⟨hstrict, -⟩
  · cases (h x hx).symm.trans hunwritten
  · cases hs.symm.trans hstrict

theorem not_oversized_standard : ¬ Settings.standard.Oversized :=
  not_oversized_of_permissive rfl (by simp only [List.forall_mem_cons]; exact ⟨rfl, rfl, fun _ hx => by cases hx⟩)

theorem not_sectionStumbles_nil : ¬ SectionStumbles [] := by
  rintro (⟨e, he, -⟩ | ⟨changes, hchanges, h⟩)
  · cases he
  · obtain rfl := Except.ok.inj hchanges
    exact not_oversized_standard h

/-- The fields of the standard settings. -/
def standardFields : Fields := [("unit", .text "cm"), ("positioning", .text "absolute"), ("feedrate", .int 50),
  ("clearance", .int 10), ("start", .list [.int 0, .int 0, .int 10]), ("finish", .list [.int 0, .int 0, .int 10]),
  ("line_numbering", .bool true), ("strict", .bool false)]

omit [DigitLimit] in
theorem standardSection_eq : standardSection = .map standardFields.entries := rfl

/-- The standard settings are not strict, so they are not refused without words. -/
theorem not_fails_standardSection : ¬ Fails (·.isRefusal = false) (ofSection standardSection) := by
  have hknown : standardFields.strangers = [] := by decide
  have hnames : standardFields.names.Nodup := by decide
  rw [standardSection_eq, fails_ofSection, or_iff_right (not_isOdd_entries _), sectionChanges_entries, if_pos hknown]
  rintro ⟨changes, hchanges, h⟩
  obtain rfl := Except.ok.inj hchanges
  refine not_oversized_of_permissive ?_ ?_ h
  · rw [Settings.change_fields hnames]
    rfl
  · intro x hx
    rw [Settings.change_fields hnames]
    simp only [List.mem_cons, List.not_mem_nil, or_false] at hx
    rcases hx with rfl | rfl <;> rfl

variable [Yaml.Reader]

theorem not_fails_loadSection (h : Legible t p) : ¬ Fails (·.isRefusal = false) (loadSection t p) := by
  obtain ⟨text, htext, -⟩ := id h
  rw [loadSection_of_content htext, fails_bind, fails_mapError]
  rintro (hfile | ⟨v, -, hsection⟩)
  · exact h.not_fails_loadFile hfile
  · unfold sectionOf at hsection
    split at hsection
    · exact absurd (fails_error.mp hsection) (by simp [ConfigFileError.isRefusal])
    · split at hsection
      · exact absurd (fails_error.mp hsection) (by simp [ConfigFileError.isRefusal])
      · exact absurd hsection (not_fails_ok _)
      · exact absurd hsection (not_fails_ok _)
      · exact absurd (fails_error.mp hsection) (by simp [ConfigFileError.isRefusal])
    · exact absurd (fails_error.mp hsection) (by simp [ConfigFileError.isRefusal])

/-- A configuration's file is refused without words for what stands in its section. -/
theorem fails_readFile (h : Legible t p) : Fails (·.isRefusal = false) (readFile t (some p)).1 ↔
    ∃ es, loadSection t p = .ok (.map es) ∧ SectionStumbles es := by
  have hread : (readFile t (some p)).1 = loadSection t p >>= fun w => (ofSection w).mapError ConfigFileError.config := by
    unfold readFile
    dsimp only
    cases loadSection t p with
    | error e => rfl
    | ok w => rfl
  rw [hread, fails_bind, or_iff_right (not_fails_loadSection h)]
  constructor
  · rintro ⟨w, hload, hfails⟩
    have hfails : Fails (·.isRefusal = false) (ofSection w) := fails_mapError.mp hfails
    obtain ⟨text, htext, -⟩ := h
    have hsection := hload
    rw [loadSection_of_content htext] at hsection
    obtain ⟨v, -, hv⟩ := bind_eq_ok.mp hsection
    rcases sectionOf_eq_ok hv with hopen | ⟨es, rfl⟩
    · rw [hopen, fails_ofSection] at hfails
      exact absurd hfails not_sectionStumbles_nil
    · exact ⟨es, hload, (fails_ofSection es).mp hfails⟩
  · rintro ⟨es, hload, hstumbles⟩
    exact ⟨_, hload, fails_mapError.mpr ((fails_ofSection es).mpr hstumbles)⟩

theorem not_fails_readFile_none (t : FileTree) : ¬ Fails (·.isRefusal = false) (readFile t none).1 := by
  intro h
  have h : Fails (·.isRefusal = false) ((ofSection standardSection).mapError ConfigFileError.config) := h
  exact not_fails_standardSection (fails_mapError.mp h)

end Config

/-! ### The configuration of a job -/

namespace Job

variable {job : Job}

theorem fails_config_of_some {f : Fields} (h : job.settings = some f) (fallback : Option Config) (changes : Fields) :
    Fails (·.isRefusal = false) (job.config fallback changes).1 ↔
      ∃ asked, Config.sectionChanges (f.putAll changes).entries = .ok asked
        ∧ (Settings.standard.change asked).Oversized := by
  have hput : changedSettings f changes = .map (f.putAll changes).entries :=
    congrArg Value.map (Fields.putAll_entries f changes)
  rw [config, h]
  dsimp only
  rw [hput, Config.fails_ofSection, or_iff_right (Config.not_isOdd_entries _)]

theorem fails_config_of_none (h : job.settings = none) (c : Config) (changes : Fields) :
    Fails (·.isRefusal = false) (job.config (some c) changes).1 ↔
      changes ≠ [] ∧ ∃ asked, Config.sectionChanges changes.entries = .ok asked ∧ (c.given.change asked).Oversized := by
  have hkeys := mt (Config.fails_sectionChanges changes.entries).mp (Config.not_isOdd_entries changes)
  rw [config, h]
  cases changes with
  | nil => exact ⟨fun hfails => absurd hfails (not_fails_ok _), fun h => absurd rfl h.1⟩
  | cons first rest =>
      show Fails _ (c.overrideFields (first :: rest)).1 ↔ _
      unfold Config.overrideFields
      cases hasked : Config.sectionChanges (Fields.entries (first :: rest)) with
      | error e =>
          rw [hasked] at hkeys
          refine ⟨fun hfails => absurd (fails_error.mpr (fails_error.mp hfails)) hkeys, ?_⟩
          rintro ⟨-, asked, hother, -⟩
          cases hother
      | ok asked =>
          dsimp only
          rw [show (c.override asked).mapError ConfigError.setting = Config.make (c.given.change asked) from rfl,
            Config.fails_make]
          constructor
          · intro hlarge
            exact ⟨List.cons_ne_nil _ _, asked, rfl, hlarge⟩
          · rintro ⟨-, asked', hsame, hlarge⟩
            obtain rfl := Except.ok.inj hsame
            exact hlarge

end Job

namespace Config

theorem reads_of_ofSection {v : Value} {c : Config} (h : ofSection v = .ok c) : ∃ s, c.Reads s := by
  obtain ⟨s, -, hmade⟩ := bind_eq_ok.mp h
  exact ⟨s, ofSettings_eq_ok.mp (mapError_eq_ok.mp hmade)⟩

theorem reads_of_readFile [Yaml.Reader] {t : FileTree} {place : Option Path} {c : Config} (h : (readFile t place).1 = .ok c) :
    ∃ s, c.Reads s := by
  unfold readFile at h
  split at h
  · have h : (ofSection standardSection).mapError ConfigFileError.config = .ok c := h
    exact reads_of_ofSection (mapError_eq_ok.mp h)
  · split at h
    · rename_i v _
      have h : (ofSection v).mapError ConfigFileError.config = .ok c := h
      exact reads_of_ofSection (mapError_eq_ok.mp h)
    · cases h

end Config

/-- The configuration of a job is what some settings mean, where its fallback is. -/
theorem Job.reads_of_config {job : Job} {fallback : Option Config} {changes : Fields} {c : Config}
    (hbare : job.settings = none → ∃ base, fallback = some base ∧ ∃ s, base.Reads s)
    (h : (job.config fallback changes).1 = .ok c) : ∃ s, c.Reads s := by
  unfold config at h
  split at h
  · exact Config.reads_of_ofSection h
  · rename_i hnone
    obtain ⟨base, rfl, hbase⟩ := hbare hnone
    split at h
    · obtain rfl := Except.ok.inj h
      exact hbase
    · unfold Config.overrideFields at h
      split at h
      · exact ⟨_, Config.ofSettings_eq_ok.mp (mapError_eq_ok.mp h)⟩
      · cases h

/-- The directives of a job are in order, and a permissive configuration has numbers in its opening that cannot be
written. -/
structure Job.CannotOpen (job : Job) (c : Config) : Prop where
  operations : ∃ ops, job.operations = .ok ops
  permissive : c.strict = false
  opening : ¬ c.WritesOpening

/-! ### Runs

The journal may be set up between the start of a run and the reading of its files, so what a
run finds in them is put in terms of the files as they were before.
-/

namespace Command

variable {now : Instant} {a : Arguments} {place : Path} {s : Session} {t : FileTree}

/-- All that the command line overrides is the policy. -/
theorem fails_config_of_none {job : Job} (h : job.settings = none) (c : Config) :
    Fails (·.isRefusal = false) (job.config (some c) a.changes).1 ↔
      a.strict = true ∧ (c.given.put .strict (.bool true)).Oversized := by
  rw [Job.fails_config_of_none h]
  unfold Arguments.changes
  cases a.strict with
  | false => simp
  | true =>
      have hasked : Config.sectionChanges (Fields.entries [("strict", .bool true)]) = .ok [(.strict, .bool true)] := by
        rw [Config.sectionChanges_entries]
        rfl
      simp only [if_true, ne_eq, List.cons_ne_nil, not_false_eq_true, true_and]
      rw [hasked]
      constructor
      · rintro ⟨asked, hsame, hlarge⟩
        obtain rfl := Except.ok.inj hsame
        exact hlarge
      · intro hlarge
        exact ⟨_, rfl, hlarge⟩

/-- Behind the configuration all that fails without words is the opening: the names of a seed are texts. -/
theorem fails_program {job : Job} {c : Config} (hc : ∃ settings, c.Reads settings) (hseed : a.seed ≠ .nothing) :
    Fails (·.isReported = false) (do
      let ops ← job.operations.mapError Failure.directives
      let names ← a.names
      ((Generator.mk c (some names)).generate ops).1.mapError Failure.program) ↔ job.CannotOpen c := by
  obtain ⟨settings, hc⟩ := hc
  obtain ⟨seed, hnames⟩ : ∃ seed, a.names = .ok (.ofSeed seed) := by
    unfold Arguments.names
    split
    · exact ⟨_, rfl⟩
    · exact absurd ‹_› hseed
  have hname : c.checkName (.ofSeed seed) = .ok () := c.checkName_of_seeded _
  have hgenerate {ops : List Operation} (hops : job.operations = .ok ops) :
      Fails (·.isReported = false) (((Generator.mk c (some (.ofSeed seed))).generate ops).1.mapError Failure.program)
        ↔ ¬ c.CanOpen (.ofSeed seed) :=
    fails_mapError.trans (Generator.fails_generate (g := ⟨c, some (.ofSeed seed)⟩) hc (Job.fits_of_operations hops))
  have hdirectives : ¬ Fails (·.isReported = false) (job.operations.mapError Failure.directives) := by
    rw [fails_mapError]
    exact not_fails_of_forall fun _ => Bool.noConfusion
  rw [fails_bind, or_iff_right hdirectives, hnames]
  constructor
  · rintro ⟨ops, hops, h⟩
    have hops := mapError_eq_ok.mp hops
    have hstuck := (hgenerate hops).mp h
    refine ⟨⟨ops, hops⟩, ?_, fun hopening => hstuck ⟨hname, fun _ => hopening⟩⟩
    rw [← Bool.not_eq_true]
    exact fun hstrict => hstuck ⟨hname, fun hpermissive => Bool.noConfusion (hstrict.symm.trans hpermissive)⟩
  · rintro ⟨⟨ops, hops⟩, hpermissive, hopening⟩
    exact ⟨ops, mapError_eq_ok.mpr hops, (hgenerate hops).mpr fun hcan => hopening (hcan.opening hpermissive)⟩

/-- With its fallback at hand a job can only fail without words for its configuration, or for the opening with it. -/
theorem fails_configured {job : Job} {fallback : Option Config}
    (hbare : job.settings = none → ∃ base, fallback = some base ∧ ∃ settings, base.Reads settings)
    (hseed : a.seed ≠ .nothing) :
    Fails (·.isReported = false) (do
      let config ← (job.config fallback a.changes).1.mapError Failure.config
      let ops ← job.operations.mapError .directives
      let names ← a.names
      ((Generator.mk config (some names)).generate ops).1.mapError .program)
    ↔ Fails (·.isRefusal = false) (job.config fallback a.changes).1
      ∨ ∃ c, (job.config fallback a.changes).1 = .ok c ∧ job.CannotOpen c := by
  rw [fails_bind, fails_mapError]
  refine or_congr Iff.rfl ?_
  constructor
  · rintro ⟨c, hc, h⟩
    have hc := mapError_eq_ok.mp hc
    exact ⟨c, hc, (fails_program (Job.reads_of_config hbare hc) hseed).mp h⟩
  · rintro ⟨c, hc, h⟩
    exact ⟨c, mapError_eq_ok.mpr hc, (fails_program (Job.reads_of_config hbare hc) hseed).mpr h⟩

variable [Yaml.Reader]

/-- The place of the configuration; none where no file is named, or the switch is left empty. -/
def Arguments.configPath? (a : Arguments) : Option Path :=
  match a.config with
  | some (.just file) => some (.ofText file)
  | _ => none

/-- What a run has no words for, by where it stands. -/
inductive Arguments.Stumbles (a : Arguments) (t : FileTree) (place : Path) : Prop where
  /-- The job has a key that is no text. -/
  | jobKey {es : List (Value × Value)} (hfile : Yaml.loadFile t place = .ok (.map es)) (hodd : ∃ e ∈ es, e.1.IsOdd)
  /-- The settings of the job, with what the command line overrides, are oversized. -/
  | jobSettings {job : Job} {f : Fields} {asked : Changes} (hjob : Job.load t place = .ok job)
      (hown : job.settings = some f) (hknown : Config.sectionChanges (f.putAll a.changes).entries = .ok asked)
      (hlarge : (Settings.standard.change asked).Oversized)
  /-- The job has no settings, and the section in the file of the configuration has a key that is no text or is
  oversized. -/
  | fallback {job : Job} {p : Path} {es : List (Value × Value)} (hjob : Job.load t place = .ok job)
      (hbare : job.settings = none) (hp : a.configPath? = some p) (hsection : Config.loadSection t p = .ok (.map es))
      (hstumbles : Config.SectionStumbles es)
  /-- The job has no settings, and the command line makes a configuration strict that is oversized then. -/
  | strict {job : Job} {c : Config} (hjob : Job.load t place = .ok job) (hbare : job.settings = none)
      (hread : (Config.readFile t a.configPath?).1 = .ok c) (hstrict : a.strict = true)
      (hlarge : (c.given.put .strict (.bool true)).Oversized)
  /-- The directives of the job can be carried out, and the program that they are for cannot be opened. -/
  | opening {job : Job} {fallback : Option Config} {c : Config} (hjob : Job.load t place = .ok job)
      (hbare : job.settings = none → ∃ base, fallback = some base ∧ (Config.readFile t a.configPath?).1 = .ok base)
      (hmade : (job.config fallback a.changes).1 = .ok c) (hstuck : job.CannotOpen c)

/-- Where the file of the configuration is unchanged, the fallback is what it held all along. -/
theorem Arguments.fallback_eq (hconfig : a.config ≠ some .nothing)
    (hread : Config.readFile (s.said now (Config.loadingNotes s.disk.tree a.configPath?)).disk.tree a.configPath?
      = Config.readFile t a.configPath?) (job : Job) :
    a.fallback now job s = if job.settings.isSome then .ok none
      else some <$> (Config.readFile t a.configPath?).1.mapError Failure.configFile := by
  have hplace : (a.config.mapM fun file => Path.ofValue? file.toValue) = .ok a.configPath? := by
    unfold configPath?
    cases hgiven : a.config with
    | none => rfl
    | some given =>
        cases given with
        | nothing => exact absurd hgiven hconfig
        | just file => rfl
  unfold fallback
  rw [hplace, ← hread]
  rfl

theorem fails_fallback (hlegible : ∀ p, a.configPath? = some p → Legible t p) :
    Fails (·.isReported = false) ((Config.readFile t a.configPath?).1.mapError Failure.configFile) ↔
      ∃ p es, a.configPath? = some p ∧ Config.loadSection t p = .ok (.map es) ∧ Config.SectionStumbles es := by
  rw [fails_mapError]
  show Fails (·.isRefusal = false) (Config.readFile t a.configPath?).1 ↔ _
  cases hp : a.configPath? with
  | none =>
      refine ⟨fun h => absurd h (Config.not_fails_readFile_none t), ?_⟩
      rintro ⟨p, es, hnone, -⟩
      cases hnone
  | some p =>
      rw [Config.fails_readFile (hlegible p hp)]
      constructor
      · rintro ⟨es, hes⟩
        exact ⟨p, es, rfl, hes⟩
      · rintro ⟨p', es, hsame, hes⟩
        obtain rfl := Option.some.inj hsame
        exact ⟨es, hes⟩

section Listings

variable (hconfig : a.config ≠ some .nothing) (hseed : a.seed ≠ .nothing)
  (hread : Config.readFile (s.said now (Config.loadingNotes s.disk.tree a.configPath?)).disk.tree a.configPath?
    = Config.readFile t a.configPath?)
include hconfig hseed hread

/-- A job with settings needs no fallback. -/
theorem fails_listingOfJob_of_some {job : Job} {f : Fields} (hown : job.settings = some f) :
    Fails (·.isReported = false) (a.listingOfJob now job s) ↔
      (∃ asked, Config.sectionChanges (f.putAll a.changes).entries = .ok asked
        ∧ (Settings.standard.change asked).Oversized)
      ∨ ∃ c, (job.config none a.changes).1 = .ok c ∧ job.CannotOpen c := by
  have hfallback : a.fallback now job s = .ok none := by
    rw [Arguments.fallback_eq hconfig hread, hown]
    rfl
  unfold Arguments.listingOfJob
  rw [hfallback, ← Job.fails_config_of_some hown none]
  refine fails_configured (fun hbare => ?_) hseed
  rw [hown] at hbare
  cases hbare

/-- A job without settings fails for the section that it falls back on, or for what is overridden in it. -/
theorem fails_listingOfJob_of_none (hlegible : ∀ p, a.configPath? = some p → Legible t p) {job : Job}
    (hbare : job.settings = none) :
    Fails (·.isReported = false) (a.listingOfJob now job s) ↔
      (∃ p es, a.configPath? = some p ∧ Config.loadSection t p = .ok (.map es) ∧ Config.SectionStumbles es)
      ∨ ∃ base, (Config.readFile t a.configPath?).1 = .ok base
        ∧ ((a.strict = true ∧ (base.given.put .strict (.bool true)).Oversized)
          ∨ ∃ c, (job.config (some base) a.changes).1 = .ok c ∧ job.CannotOpen c) := by
  have hfallback : a.fallback now job s = some <$> (Config.readFile t a.configPath?).1.mapError Failure.configFile := by
    rw [Arguments.fallback_eq hconfig hread, hbare]
    rfl
  unfold Arguments.listingOfJob
  rw [hfallback, fails_bind, fails_map, fails_fallback hlegible]
  refine or_congr_right ?_
  constructor
  · rintro ⟨fallback, hmade, h⟩
    obtain ⟨base, hbase, rfl⟩ := map_eq_ok.mp hmade
    have hbase := mapError_eq_ok.mp hbase
    have h := (fails_configured (fun _ => ⟨base, rfl, Config.reads_of_readFile hbase⟩) hseed).mp h
    exact ⟨base, hbase, h.imp_left (fails_config_of_none hbare base).mp⟩
  · rintro ⟨base, hbase, h⟩
    refine ⟨some base, map_eq_ok.mpr ⟨base, mapError_eq_ok.mpr hbase, rfl⟩, ?_⟩
    refine (fails_configured (fun _ => ⟨base, rfl, Config.reads_of_readFile hbase⟩) hseed).mpr ?_
    exact h.imp_left (fails_config_of_none hbare base).mpr

/-- **What a listing fails of without words.** -/
theorem fails_listingOf (hlegible : ∀ p, a.configPath? = some p → Legible t p) (hjob : Legible t place)
    (hload : Job.load s.disk.tree place = Job.load t place) :
    Fails (·.isReported = false) (a.listingOf now place s) ↔ a.Stumbles t place := by
  rw [Arguments.listingOf_eq, hload, fails_bind, fails_mapError]
  show Fails (·.isRefusal = false) (Job.load t place) ∨ _ ↔ _
  rw [Job.fails_load hjob]
  constructor
  · rintro (⟨es, hfile, hodd⟩ | ⟨job, hmade, h⟩)
    · exact .jobKey hfile hodd
    have hmade := mapError_eq_ok.mp hmade
    cases hsettings : job.settings with
    | some f =>
        rcases (fails_listingOfJob_of_some hconfig hseed hread hsettings).mp h with
          ⟨asked, hknown, hlarge⟩ | ⟨c, hc, hstuck⟩
        · exact .jobSettings hmade hsettings hknown hlarge
        · refine .opening hmade (fun hbare => ?_) hc hstuck
          cases hbare.symm.trans hsettings
    | none =>
        rcases (fails_listingOfJob_of_none hconfig hseed hread hlegible hsettings).mp h with
          ⟨p, es, hp, hsection, hstumbles⟩ | ⟨base, hbase, ⟨hstrict, hlarge⟩ | ⟨c, hc, hstuck⟩⟩
        · exact .fallback hmade hsettings hp hsection hstumbles
        · exact .strict hmade hsettings hbase hstrict hlarge
        · exact .opening hmade (fun _ => ⟨base, rfl, hbase⟩) hc hstuck
  · intro h
    cases h with
    | jobKey hfile hodd => exact Or.inl ⟨_, hfile, hodd⟩
    | @jobSettings job f asked hmade hown hknown hlarge =>
        have h := (fails_listingOfJob_of_some hconfig hseed hread hown).mpr (Or.inl ⟨asked, hknown, hlarge⟩)
        exact Or.inr ⟨job, mapError_eq_ok.mpr hmade, h⟩
    | @fallback job p es hmade hbare hp hsection hstumbles =>
        have h := (fails_listingOfJob_of_none hconfig hseed hread hlegible hbare).mpr
          (Or.inl ⟨p, es, hp, hsection, hstumbles⟩)
        exact Or.inr ⟨job, mapError_eq_ok.mpr hmade, h⟩
    | @strict job c hmade hbare hc hstrict hlarge =>
        have h := (fails_listingOfJob_of_none hconfig hseed hread hlegible hbare).mpr
          (Or.inr ⟨c, hc, Or.inl ⟨hstrict, hlarge⟩⟩)
        exact Or.inr ⟨job, mapError_eq_ok.mpr hmade, h⟩
    | @opening job fallback c hmade hbare hc hstuck =>
        cases hsettings : job.settings with
        | some f =>
            have hc : (job.config none a.changes).1 = .ok c := by
              rw [Job.config, hsettings] at hc ⊢
              exact hc
            have h := (fails_listingOfJob_of_some hconfig hseed hread hsettings).mpr (Or.inr ⟨c, hc, hstuck⟩)
            exact Or.inr ⟨job, mapError_eq_ok.mpr hmade, h⟩
        | none =>
            obtain ⟨base, rfl, hbase⟩ := hbare hsettings
            have h := (fails_listingOfJob_of_none hconfig hseed hread hlegible hsettings).mpr
              (Or.inr ⟨base, hbase, Or.inr ⟨c, hc, hstuck⟩⟩)
            exact Or.inr ⟨job, mapError_eq_ok.mpr hmade, h⟩

end Listings

end Command

end PartProgram
