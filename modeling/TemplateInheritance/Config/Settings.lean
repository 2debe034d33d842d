/-!
# Settings

Limits and lifetimes with their defaults. Lifetimes and intervals are whole seconds.
-/

namespace TemplateInheritance

/-- Limits and lifetimes of the two cache tables. -/
structure CacheSettings where
  hierarchyLifetime : Nat := 900
  resolvedLifetime : Nat := 300
  maxEntries : Nat := 1000
  sweepInterval : Nat := 120
deriving DecidableEq

/-- A table holds at least one entry, whatever its setting says. -/
def CacheSettings.capacity (settings : CacheSettings) : Nat := max 1 settings.maxEntries

/-- Everything that can be set. -/
structure Settings where
  cache : CacheSettings := {}
  maxSuperDepth : Nat := 10
deriving DecidableEq

/-- The environment variable that names the settings file. -/
def settingsVariable : String := "TPL_INHERIT_CONFIG"

end TemplateInheritance
