/-
Configurations from sections.

A section is a map from keys to values, as a file holds it; every key must be one of a setting.  What counts as
false is a section without entries.
-/
import PartProgram.Config.Basic
import PartProgram.Value.Entries
import PartProgram.Value.Fields
import PartProgram.Value.Order

namespace PartProgram

/-- Why a section makes no configuration. -/
inductive ConfigError where
  | setting (e : SettingError)
  /-- Keys that are no settings, in alphabetical order. -/
  | unknownKeys (keys : List String)
  /-- The first of the keys that are no settings is not even a text. -/
  | namelessKey (kind : String)
  /-- The keys that are no settings cannot be put in order. -/
  | unorderedKeys (e : Unordered)
  /-- The value is no map. -/
  | noEntries (e : EntriesError)
  /-- The fields are not those of a configuration. -/
  | fields (e : FieldError)

variable [DigitLimit]

namespace ConfigError

/-- What went wrong, in words. -/
def message : ConfigError → String
  | setting e => e.message
  | unknownKeys keys =>
    let known := (Setting.all.map Setting.key).mergeSort
    "Unknown program settings: " ++ ", ".intercalate keys ++ " (expected a subset of "
      ++ ", ".intercalate known ++ ")"
  | namelessKey kind => "sequence item 0: expected str instance, " ++ kind ++ " found"
  | unorderedKeys e => e.message
  | noEntries e => e.message
  | fields e => e.message

end ConfigError

/-- The texts among values, where all of them are texts. -/
def Value.texts? (vs : List Value) : Option (List String) :=
  vs.mapM fun
    | .text s => some s
    | _ => none

namespace Config

/-- The error that keys which are no settings make.  They are put in order first. -/
def unknownKeysError (keys : List Value) : ConfigError :=
  match Value.sorted keys with
  | .error e => .unorderedKeys e
  | .ok keys => match Value.texts? keys, keys with
    | some ss, _ => .unknownKeys ss
    | none, k :: _ => .namelessKey k.kindName
    | none, [] => .unknownKeys []

/-- The setting a key stands for. -/
def keySetting? : Value → Option Setting
  | .text s => Setting.ofKey? s
  | _ => none

/-- The changes that the entries of a section make to the standard settings. -/
def sectionChanges (entries : List (Value × Value)) : Except ConfigError Changes :=
  match entries.filter fun e => (keySetting? e.1).isNone with
  | [] => .ok (entries.filterMap fun (k, v) => (keySetting? k).map fun s => (s, v))
  | unknown => .error (unknownKeysError (unknown.map (·.1)))

/-- The settings that a section gives. -/
def sectionSettings (v : Value) : Except ConfigError Settings := do
  let entries ← if v.isTrue then v.entries.mapError .noEntries else .ok []
  return Settings.standard.change (← sectionChanges entries)

/-- The configuration that settings make, among the errors of a section. -/
def make (s : Settings) : Except ConfigError Config := (ofSettings s).mapError .setting

/-- The configuration that a section makes. -/
def ofSection (v : Value) : Except ConfigError Config := do make (← sectionSettings v)

/-- What is said while a section is made into a configuration. -/
def sectionNotes (v : Value) : List Note :=
  match sectionSettings v with
  | .ok s => notes s
  | .error _ => []

/-- The fields of a configuration, none of which must be there. -/
def signature : Signature := ⟨"ProgramConfig.__init__", [], Setting.all.map fun s => (s.key, Settings.standard s)⟩

/-- The settings that fields give, each of which a configuration must have. -/
def fieldSettings (fields : Fields) : Except ConfigError Settings :=
  (signature.check fields).mapError .fields |>.map fun _ =>
    Settings.standard.change (fields.filterMap fun (k, v) => (Setting.ofKey? k).map fun s => (s, v))

/-- The configuration that fields make. -/
def ofFields (fields : Fields) : Except ConfigError Config := do make (← fieldSettings fields)

/-- What is said while fields are made into a configuration. -/
def fieldNotes (fields : Fields) : List Note :=
  match fieldSettings fields with
  | .ok s => notes s
  | .error _ => []

end Config

end PartProgram
