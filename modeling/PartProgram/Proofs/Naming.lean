/-
The name of a program, and where it comes from.

A name can be given among the fields of a configuration, in its section, in an override or in the
settings of a job, and overrides that do not speak of it hand it on.  Whichever way it takes, it is
read once more for every configuration that is made, by one rule: what counts as true is written in
upper case, and what counts as false is no name.  Among the integers and the texts with something in
them there is one that counts as false, and this is zero; it is dropped, and programs take their
names from the source as if nothing had been given.

Behind the configuration nothing can go wrong with the name that is left.  The opening writes it on
the second line of the buffer, and the buffer only grows at its end, so every listing has it there,
whatever was done to the program before.  What a reader sees as the second line of the text is the
same line as long as the name is one line.
-/
import PartProgram.Proofs.Abreast
import PartProgram.Proofs.Casing
import PartProgram.Proofs.Ending
import PartProgram.Proofs.Overrides
import PartProgram.Proofs.Splitting
import PartProgram.Proofs.Unnumbered

namespace PartProgram

open PartProgram.Numbering

/-! ### Line breaks in upper case

Whether a name is one line is asked of what was given, and the title has it in upper case.  No
character becomes a line break in upper case, nor does a line break become anything else, which
is a look through the tables.
-/

/-- No upper case is a line break but that of a line break. -/
theorem Text.newline_mem_upperChar {c : Char} : '\n' ∈ upperChar c ↔ c = '\n' := by
  constructor
  · intro h
    rw [upperChar_eq] at h
    by_cases hsmall : c.toNat < 0x80
    · have hascii : ∀ n < 0x80, '\n' = (Char.ofNat n).toUpper → Char.ofNat n = '\n' := by
        decide +kernel
      have hkept := hascii c.toNat hsmall
      rw [Char.ofNat_toNat] at hkept
      rw [changed, if_pos hsmall, List.mem_singleton] at h
      exact hkept h
    · rcases image_of_mem_changed (by omega) h with ⟨-, hsame⟩ | ⟨n, hn, himage⟩
      · exact hsame.symm
      · by_cases hvalid : n.isValidChar
        · have hpoint : n = '\n'.toNat := by rw [himage, toNat_ofNat hvalid]
          have hapart : '\n'.toNat ∉ images upperSequences upperRuns := by decide +kernel
          exact absurd (hpoint ▸ hn) hapart
        · rw [ofNat_of_not_valid hvalid] at himage
          exact absurd himage (by decide)
  · rintro rfl
    decide

/-- Upper case keeps the lines of a text. -/
theorem isOneLine_upper (s : String) : IsOneLine (Text.upper s) ↔ IsOneLine s := by
  rw [Text.upper, isOneLine_ofList, List.mem_flatMap, IsOneLine]
  simp only [Text.newline_mem_upperChar, exists_eq_right]

/-! ### The second line -/

/-- The first line of a text is the text itself exactly where there is no other. -/
theorem head?_textLines {s : String} : (textLines s).head? = some s ↔ IsOneLine s := by
  constructor
  · intro h
    obtain ⟨cs, hcs, rfl⟩ := List.mem_map.mp (List.mem_of_head? h)
    exact isOneLine_ofList.mpr (not_mem_of_mem_splitOn hcs)
  · intro h
    rw [textLines_of_isOneLine h, List.head?_cons]

namespace Program

variable {c : Config} {name : String} {raw : List String} {q : Program}

/-- Whatever grows out of a new program begins with the marker and the title. -/
theorem lines_of_grown [DigitLimit] (h : (opened c name).Grown raw q) :
    ∃ rest, q.lines.toList = openMarker :: (nameLetter ++ name) :: rest := by
  have hgrown := ((grown_opened c name).trans h).lines
  rw [Config.headLines_eq] at hgrown
  exact ⟨_, hgrown.trans (entries_title _ name _)⟩

/-- The second line of a listing is the title, unless the title has several lines. -/
theorem textLines_listed {rest : List String} (h : q.lines.toList = openMarker :: (nameLetter ++ name) :: rest) :
    (textLines q.listed)[1]? = some (nameLetter ++ name) ↔ IsOneLine name := by
  have hletter : IsOneLine nameLetter := by decide
  have hmarker : textLines openMarker = [openMarker] := textLines_of_isOneLine (by decide)
  have htitle : textLines (nameLetter ++ name) ≠ [] := by
    rw [textLines]
    simp [List.splitOn_ne_nil]
  have hsecond : (textLines q.listed)[1]? = (textLines (nameLetter ++ name)).head? := by
    rw [listed, h, textLines_intercalate (List.cons_ne_nil _ _), List.flatMap_cons, List.flatMap_cons, hmarker]
    show (textLines (nameLetter ++ name) ++ _)[0]? = _
    rw [← List.head?_eq_getElem?, List.head?_append_of_ne_nil _ htitle]
  rw [hsecond, head?_textLines, isOneLine_append, and_iff_right hletter]

end Program

section

variable [DigitLimit]

/-- Whatever is called on a new program, the second line of its buffer is its title. -/
theorem Call.second_of_runAll (c : Config) (name : String) (calls : List Call) :
    (Call.runAll calls (Program.opened c name)).lines[1]? = some (nameLetter ++ name) := by
  have hhistory := Call.recorded_runAll (Program.isOpen_opened c name).consistent calls
  obtain ⟨rest, hlines⟩ := Program.lines_of_grown hhistory.toGrown
  rw [← Array.getElem?_toList, hlines]
  rfl

theorem Call.second_of_eval {c : Config} {name : String} {calls : List Call} {listing : String}
    (h : (Call.eval.run (Call.runAll calls (Program.opened c name))).1 = .ok (some listing)) :
    (textLines listing)[1]? = some (nameLetter ++ name) ↔ IsOneLine name := by
  have ho := Program.isOpen_opened c name
  have hhistory := Call.recorded_runAll ho.consistent calls
  have heval := Call.recorded_run hhistory.consistent .eval
  obtain ⟨rest, hlines⟩ := Program.lines_of_grown (hhistory.trans heval).toGrown
  have hlists := Call.listsBuffer_runAll ho.consistent (Program.listsBuffer_of_none ho.listing) calls
  obtain ⟨-, hlisted⟩ := (Call.gives_run hhistory.consistent .eval).listing_of_ok hlists h
  rw [hlisted]
  exact Program.textLines_listed hlines

theorem Generator.second_of_answer {g : Generator} {ops : List Operation} {listing : String}
    (h : (g.generate ops).1 = .ok listing) :
    (textLines listing)[1]? = some (nameLetter ++ g.nextName) ↔ IsOneLine g.nextName := by
  obtain ⟨p, q, hp, hq⟩ := Generator.run_of_answer h
  obtain rfl := Generator.opened_of_openNext hp
  obtain ⟨hlisted, -⟩ := Writing.listed_of_answer (Program.isOpen_opened _ _) (Program.follows_opened _ _) hq
  obtain ⟨rest, hlines⟩ := Program.lines_of_grown hlisted.toGrown
  rw [hlisted.listing]
  exact Program.textLines_listed hlines

/-! ### Names that are given

A name is read for each configuration anew from what was given, so the ways differ only in how
the value comes to stand under the name of its setting.  For each of them this is a lookup, and
in an override that does not speak of the name it is the lookup in the settings before.
-/

/-- What a name can be given as: an integer, or a text with something in it. -/
def Value.IsName : Value → Prop
  | .int _ => True
  | .text s => s ≠ ""
  | _ => False

omit [DigitLimit] in
/-- A name counts as true unless it is zero. -/
theorem Value.IsName.isTrue_iff {v : Value} (h : v.IsName) : v.isTrue = true ↔ v ≠ .int 0 := by
  cases v with
  | int i => simp [isTrue]
  | text s =>
      have hs : s ≠ "" := h
      simp [isTrue, hs]
  | _ => cases h

namespace Config

variable {f changes : Fields} {base c : Config} {v : Value}

/-- The ways in which a value is given as the name of a configuration. -/
inductive Named (v : Value) : Config → Prop where
  /-- Among the fields. -/
  | fields {f : Fields} {c : Config} (hf : f.names.Nodup) (hname : f.lookup "name" = some v) (hc : ofFields f = .ok c) :
      Named v c
  /-- In a section. -/
  | entries {f : Fields} {c : Config} (hf : f.names.Nodup) (hname : f.lookup "name" = some v)
      (hc : ofSection (.map f.entries) = .ok c) : Named v c
  /-- By an override. -/
  | override {base c : Config} {changes : Fields} (hchanges : changes.names.Nodup)
      (hname : changes.lookup "name" = some v) (hc : (base.overrideFields changes).1 = .ok c) : Named v c
  /-- Before an override that does not speak of it. -/
  | kept {base c : Config} {changes : Fields} (hbase : Named v base) (hchanges : changes.names.Nodup)
      (hname : changes.lookup "name" = none) (hc : (base.overrideFields changes).1 = .ok c) : Named v c
  /-- In the settings of a job, or in what is changed in them. -/
  | job {job : Job} {f changes : Fields} {fallback : Option Config} {c : Config} (hown : job.settings = some f)
      (hf : f.names.Nodup) (hchanges : changes.names.Nodup) (hname : (f.putAll changes).lookup "name" = some v)
      (hc : (job.config fallback changes).1 = .ok c) : Named v c
  /-- In what a job without settings falls back on. -/
  | fallback {job : Job} {base : Config} {changes : Fields} {c : Config} (hbare : job.settings = none)
      (hbase : Named v base) (hchanges : changes.names.Nodup) (hname : changes.lookup "name" = none)
      (hc : (job.config (some base) changes).1 = .ok c) : Named v c

theorem reads_of_ofFields (h : ofFields f = .ok c) : c.Reads (Settings.standard.change f.changes) := by
  obtain ⟨s, hs, hc⟩ := bind_eq_ok.mp h
  obtain ⟨_, -, rfl⟩ := map_eq_ok.mp hs
  exact make_eq_ok.mp hc

omit [DigitLimit] in
/-- What the entries of fields change is what the fields change. -/
theorem changes_of_sectionChanges {asked : Changes} (h : sectionChanges f.entries = .ok asked) :
    asked = f.changes := by
  rw [sectionChanges_entries] at h
  split at h
  · exact (Except.ok.inj h).symm
  · cases h

theorem reads_of_entries (h : ofSection (.map f.entries) = .ok c) : c.Reads (Settings.standard.change f.changes) := by
  rw [ofSection_map] at h
  obtain ⟨asked, hasked, hc⟩ := bind_eq_ok.mp h
  rw [changes_of_sectionChanges hasked] at hc
  exact make_eq_ok.mp hc

theorem reads_of_overrideFields (h : (base.overrideFields changes).1 = .ok c) :
    c.Reads (base.given.change changes.changes) := by
  rw [overrideFields] at h
  cases hasked : sectionChanges changes.entries with
  | error e =>
      rw [hasked] at h
      cases h
  | ok asked =>
      rw [hasked, changes_of_sectionChanges hasked] at h
      exact make_eq_ok.mp h

omit [DigitLimit] in
/-- A name that the changes do not speak of is what it was. -/
theorem change_name_of_none (hchanges : changes.names.Nodup) (hname : changes.lookup "name" = none) (s : Settings) :
    s.change changes.changes .name = s .name := by
  rw [Settings.change_fields hchanges]
  exact congrArg (·.getD (s .name)) hname

omit [DigitLimit] in
theorem change_name_of_some (hf : f.names.Nodup) (hname : f.lookup "name" = some v) (s : Settings) :
    s.change f.changes .name = v := by
  rw [Settings.change_fields hf]
  exact congrArg (·.getD (s .name)) hname

/-- The name that is read of a value is its text in upper case, or none. -/
theorem name_of_readName {name : Option String} (h : readName v = .ok name) :
    name = if v.isTrue then some (Text.upper v.plain) else none := by
  unfold readName at h
  cases hv : v.isTrue with
  | false =>
      rw [hv] at h
      exact (Except.ok.inj h).symm
  | true =>
      rw [hv] at h
      cases hwritten : v.isWritten with
      | false => rw [hwritten] at h; cases h
      | true =>
          rw [hwritten] at h
          exact (Except.ok.inj h).symm

/-- **Every way comes to the same.**  A configuration reads the name that it was given. -/
theorem Named.reads (h : Named v c) : ∃ s, c.Reads s ∧ s .name = v := by
  induction h with
  -- Fields, sections and jobs change the standard settings, overrides those that a configuration was given.
  | fields hf hname hc => exact ⟨_, reads_of_ofFields hc, change_name_of_some hf hname _⟩
  | entries hf hname hc => exact ⟨_, reads_of_entries hc, change_name_of_some hf hname _⟩
  | override hchanges hname hc => exact ⟨_, reads_of_overrideFields hc, change_name_of_some hchanges hname _⟩
  | kept _ hchanges hname hc ih =>
      obtain ⟨s, hs, hv⟩ := ih
      refine ⟨_, reads_of_overrideFields hc, ?_⟩
      rw [change_name_of_none hchanges hname, hs.given, hv]
  | @job job f changes fallback c hown hf hchanges hname hc =>
      have hput : Job.changedSettings f changes = .map (f.putAll changes).entries :=
        congrArg Value.map (Fields.putAll_entries f changes)
      simp only [Job.config, hown, hput] at hc
      exact ⟨_, reads_of_entries hc, change_name_of_some (Fields.nodup_putAll hf changes) hname _⟩
  | @fallback job base changes c hbare _ hchanges hname hc ih =>
      obtain ⟨s, hs, hv⟩ := ih
      simp only [Job.config, hbare, Option.getD_some] at hc
      cases changes with
      | nil =>
          obtain rfl := Except.ok.inj hc
          exact ⟨s, hs, hv⟩
      | cons first rest =>
          refine ⟨_, reads_of_overrideFields hc, ?_⟩
          rw [change_name_of_none hchanges hname, hs.given, hv]

/-! ### The titles of programs -/

/-- With these names to come the next program of the configuration has the name for its title, where
it can be opened, and those are the names that are left after it.  The title is the second line of the buffer whatever is
called on the program, and the second line of what an evaluation or a generator answers where it is
one line. -/
structure Titles (c : Config) (names : NameSource) (name : String) (left : NameSource) : Prop where
  opens : (Program.openNext c names).1 = .ok (Program.opened c name) ↔ c.CanOpen names
  buffer : ∀ calls, (Call.runAll calls (Program.opened c name)).lines[1]? = some (nameLetter ++ name)
  listing : ∀ calls listing, (Call.eval.run (Call.runAll calls (Program.opened c name))).1 = .ok (some listing) →
    ((textLines listing)[1]? = some (nameLetter ++ name) ↔ IsOneLine name)
  /-- A generator without a source of its own has the standard one before it. -/
  answer : ∀ (g : Generator) ops listing, g.config = c → g.names.getD .standard = names →
    (g.generate ops).1 = .ok listing → ((textLines listing)[1]? = some (nameLetter ++ name) ↔ IsOneLine name)
  left : ∀ ops, ((⟨c, some names⟩ : Generator).generate ops).2.2 = ⟨c, some left⟩

theorem Reads.titles {s : Settings} (h : c.Reads s) {names left : NameSource} {name : String}
    (hname : c.nextName names = (name, left)) : c.Titles names name left := by
  have hopens : (Program.openNext c names).1 = .ok (Program.opened c name) ↔ c.CanOpen names := by
    rw [← openNext_of_ofSettings (ofSettings_eq_ok.mpr h) names]
    refine ⟨fun hp => ⟨_, hp⟩, fun ⟨p, hp⟩ => ?_⟩
    rw [hp, Program.opened_of_openNext hp, hname]
  have hleft : (Program.openNext c names).2 = left := congrArg Prod.snd hname
  refine ⟨hopens, Call.second_of_runAll c name, fun _ _ => Call.second_of_eval, ?_, ?_⟩
  · intro g ops listing hc hnames hlisting
    have hnext : g.nextName = name := by rw [Generator.nextName, hc, hnames, hname]
    have hsecond := Generator.second_of_answer hlisting
    rwa [hnext] at hsecond
  · intro ops
    rw [Generator.generate_eq]
    show (⟨c, some (Program.openNext c names).2⟩ : Generator) = _
    rw [hleft]

/-- **The name that is given.**  An integer or a text with something in it, however it was given, is
in upper case the name of the configuration unless it is zero: then all programs have it for their
title, and no name is taken from the source.  Zero is no name, and every program takes one from the
source.  A title is the second line of a listing exactly where it is one line, and upper case has no
part in that. -/
theorem titles_of_named (hv : v.IsName) (h : Named v c) :
    (v ≠ .int 0 → c.name = some (Text.upper v.plain) ∧ ∀ names, c.Titles names (Text.upper v.plain) names)
    ∧ (v = .int 0 → c.name = none ∧ ∀ names, c.Titles names (Text.upper names.next.1.plain) names.next.2)
    ∧ (IsOneLine (Text.upper v.plain) ↔ ∀ t ∈ v.text?, IsOneLine t) := by
  obtain ⟨s, hreads, hgiven⟩ := h.reads
  have hread := hreads.name
  rw [hgiven] at hread
  have hname := name_of_readName hread
  refine ⟨?_, ?_, ?_⟩
  · intro hnonzero
    rw [if_pos (hv.isTrue_iff.mpr hnonzero)] at hname
    exact ⟨hname, fun names => hreads.titles (by rw [nextName, hname])⟩
  · intro hzero
    rw [if_neg (mt hv.isTrue_iff.mp (not_not_intro hzero))] at hname
    exact ⟨hname, fun names => hreads.titles (by rw [nextName, hname])⟩
  · rw [isOneLine_upper]
    cases v with
    | int i =>
        have hdigits : IsOneLine (Value.int i).plain := Decimal.isOneLine_intText i
        simp [Value.text?, hdigits]
    | text t => simp [Value.text?, Value.plain]
    | _ => cases hv

end Config

end

/-- Zero for a name that was seven: the next program is the sixth of the source. -/
theorem Config.titles_of_named_of_zero :
    let seven : Fields := [("name", .int 7)]
    let zero : Fields := [("name", .int 0)]
    let b : Config := { standard with given := Settings.standard.put .name (.int 7), name := some "7" }
    let c : Config := { standard with given := (Settings.standard.put .name (.int 7)).put .name (.int 0) }
    ofFields seven = .ok b ∧ b.name = some "7" ∧ b.Titles (.sequential 5) "7" (.sequential 5)
    ∧ (b.overrideFields zero).1 = .ok c ∧ c.name = none ∧ c.Titles (.sequential 5) "005" (.sequential 6) := by
  intro seven zero b c
  have hseven : seven.Known := .single .name (.int 7)
  have hzero : zero.Known := .single .name (.int 0)
  have hfirst : seven.changes = [(.name, .int 7)] := Fields.changes_single .name (.int 7)
  have hsecond : zero.changes = [(.name, .int 0)] := Fields.changes_single .name (.int 0)
  have hunit : unitText (.text "cm") = "cm" := by decide +kernel
  have hb : ofFields seven = .ok b := by
    rw [ofFields_of_known hseven, hfirst]
    have hname : Text.upper (Value.int 7).plain = "7" := by decide +kernel
    have hread : readName (.int 7) = .ok (some "7") := by
      rw [readName_of_written (by decide) (by decide +kernel), hname]
    exact make_eq_ok.mpr ⟨rfl, hread, congrArg Except.ok hunit, rfl, rfl, rfl, rfl, rfl, rfl, rfl⟩
  have hc : (b.overrideFields zero).1 = .ok c := by
    rw [overrideFields_of_known b hzero, hsecond]
    show make (b.given.change [(.name, .int 0)]) = _
    exact make_eq_ok.mpr ⟨rfl, rfl, congrArg Except.ok hunit, rfl, rfl, rfl, rfl, rfl, rfl, rfl⟩
  obtain ⟨hkept, -⟩ := titles_of_named (v := .int 7) trivial (.fields (by decide) rfl hb)
  obtain ⟨-, hdropped, -⟩ := titles_of_named (v := .int 0) trivial (.override (by decide) rfl hc)
  obtain ⟨hname, htitles⟩ := hkept (by simp)
  obtain ⟨hnone, htaken⟩ := hdropped rfl
  exact ⟨hb, hname, htitles (.sequential 5), hc, hnone, htaken (.sequential 5)⟩

end PartProgram
