import TemplateInheritance.Config.Settings
import TemplateInheritance.Toml.Document

/-!
# Reading settings

Settings are read from a TOML document whose keys are known and whose values are unsigned words
of 64 bits. What the document leaves out keeps its default. The cache settings are a table, or an
array that gives them in their order.
-/

namespace TemplateInheritance

open Toml (Fields)

/-- The readable part of an error about settings, outermost message first. -/
abbrev SettingsError := List String

/-- An unsigned word of 64 bits. -/
def word? : Toml.Value → Option Nat
  | .integer (some n) => if 0 ≤ n ∧ n.toNat < UInt64.size then some n.toNat else none
  | _ => none

namespace CacheSettings

/-- Set one cache setting by its key. -/
def setField? (settings : CacheSettings) (name : String) (value : Toml.Value) :
    Option CacheSettings := do
  let word ← word? value
  if name = "hierarchy_ttl_secs" then some { settings with hierarchyLifetime := word }
  else if name = "resolved_ttl_secs" then some { settings with resolvedLifetime := word }
  else if name = "max_entries" then some { settings with maxEntries := word }
  else if name = "sweep_interval_secs" then some { settings with sweepInterval := word }
  else none

/-- The keys of the cache settings in their order. -/
def keys : List String :=
  ["hierarchy_ttl_secs", "resolved_ttl_secs", "max_entries", "sweep_interval_secs"]

/-- Cache settings from a table, or from an array whose surplus items do not count. -/
def ofToml? : Toml.Value → Option CacheSettings
  | .table _ fields => fields.foldlM (fun settings (name, value) ↦ settings.setField? name value) {}
  | .array items =>
    (keys.zip items).foldlM (fun settings (name, value) ↦ settings.setField? name value) {}
  | _ => none

end CacheSettings

namespace Settings

/-- Set one setting by its key. -/
def setField? (settings : Settings) (name : String) (value : Toml.Value) : Option Settings :=
  if name = "max_super_depth" then
    (word? value).map fun word ↦ { settings with maxSuperDepth := word }
  else if name = "cache" then
    (CacheSettings.ofToml? value).map fun cache ↦ { settings with cache }
  else none

/-- Settings from the fields of a document. -/
def ofFields? (fields : Fields) : Option Settings :=
  fields.foldlM (fun settings (name, value) ↦ settings.setField? name value) {}

/-- Settings from the text of a document. -/
def ofText (source : String) : Except SettingsError Settings :=
  match (Toml.document? source).bind ofFields? with
  | some settings => .ok settings
  | none => .error ["Failed to parse engine configuration"]

/-- Settings from a file of that name, given what reading it brought. -/
def ofFile (path : String) : Option String → Except SettingsError Settings
  | none => .error ["Failed to read config file: " ++ path]
  | some source =>
    match ofText source with
    | .ok settings => .ok settings
    | .error messages => .error (("Invalid config file: " ++ path) :: messages)

/-- Settings from the file that the environment names; an empty name counts as none. -/
def ofEnvironment (path : Option String) (read : Option String) : Except SettingsError Settings :=
  match path with
  | none => .ok {}
  | some path => if path.isEmpty then .ok {} else ofFile path read

end Settings

end TemplateInheritance
