import TemplateInheritance.Cache.Table
import TemplateInheritance.Config.Settings
import TemplateInheritance.Hierarchy.Basic
import TemplateInheritance.Loader

/-!
# The cache of resolutions

Two tables: hierarchies under template names, and resolved trees under a name and a digest. Each
invalidation starts a new generation, and a result is stored only in the generation in which its
making began. A lookup first sweeps expired entries out of both tables when a sweep is due.
-/

namespace TemplateInheritance

/-- A resolved tree with the full digest of the context it was made for and the names of the
templates it was made from. -/
structure ResolvedEntry where
  tree : SharedTemplate
  fullDigest : String
  chain : List String
deriving DecidableEq

/-- Whether the tree was made from a template of that name. -/
def ResolvedEntry.dependsOn (entry : ResolvedEntry) (name : String) : Bool :=
  entry.chain.contains name

/-- The two tables, the generation and the sweeping times. -/
structure Cache where
  hierarchies : Table Hierarchy
  resolved : Table ResolvedEntry
  generation : Nat
  sweepInterval : Nat
  lastSweep : Nat
deriving DecidableEq

/-- What stands between name and digest in a key. -/
def keySeparator : String := "::"

/-- The digest of results that hold in every context. -/
def staticDigest : String := "static"

/-- The key of a resolved tree. -/
def resolvedKey (name digest : String) : String := name ++ keySeparator ++ digest

namespace Cache

/-- An empty cache made at `now`. -/
def new (settings : CacheSettings) (now : Nat) : Cache where
  hierarchies := .new settings.hierarchyLifetime settings.capacity
  resolved := .new settings.resolvedLifetime settings.capacity
  generation := 0
  sweepInterval := settings.sweepInterval
  lastSweep := now

/-- Sweep both tables, and count what was removed. -/
def sweepExpired (cache : Cache) (now : Nat) : Nat × Cache :=
  let (removed, hierarchies) := cache.hierarchies.sweep now
  let (removed', resolved) := cache.resolved.sweep now
  (removed + removed', { cache with hierarchies, resolved })

/-- Sweep both tables if the interval since the last sweep is over. -/
def sweepIfDue (cache : Cache) (now : Nat) : Cache :=
  if second * cache.sweepInterval ≤ now - cache.lastSweep then
    { (cache.sweepExpired now).2 with lastSweep := now }
  else cache

/-- Agreement to store only what was begun in the present generation. -/
def admission (cache : Cache) (begun : Nat) : Admission :=
  if cache.generation = begun then .agree else .refuse

/-- Look up the hierarchy kept under a name, sweeping nothing. -/
def findHierarchy (cache : Cache) (now : Nat) (name : String) : Option Hierarchy × Cache :=
  let (found, hierarchies) := cache.hierarchies.lookup now name fun _ ↦ true
  (found, { cache with hierarchies })

/-- The hierarchy kept under a name. -/
def getHierarchy (cache : Cache) (now : Nat) (name : String) : Option Hierarchy × Cache :=
  (cache.sweepIfDue now).findHierarchy now name

/-- Keep a hierarchy under a name. -/
def storeHierarchy (cache : Cache) (now : Nat) (name : String) (hierarchy : Hierarchy)
    (admission : Admission) : StoreOutcome × Cache :=
  let (outcome, hierarchies) := cache.hierarchies.store now name hierarchy admission
  (outcome, { cache with hierarchies })

/-- Look up the tree kept under a name and a digest, sweeping nothing. -/
def findResolved (cache : Cache) (now : Nat) (name digest fullDigest : String) :
    Option SharedTemplate × Cache :=
  let (found, resolved) :=
    cache.resolved.lookup now (resolvedKey name digest) (·.fullDigest == fullDigest)
  (found.map (·.tree), { cache with resolved })

/-- The tree kept under a name and a digest, if it was made for the full digest. -/
def getResolved (cache : Cache) (now : Nat) (name digest fullDigest : String) :
    Option SharedTemplate × Cache :=
  (cache.sweepIfDue now).findResolved now name digest fullDigest

/-- Keep a resolved tree under a name and a digest. -/
def storeResolved (cache : Cache) (now : Nat) (name digest : String) (entry : ResolvedEntry)
    (admission : Admission) : StoreOutcome × Cache :=
  let (outcome, resolved) := cache.resolved.store now (resolvedKey name digest) entry admission
  (outcome, { cache with resolved })

/-- Drop everything that was made from a template of that name, and start a new generation. -/
def invalidate (cache : Cache) (name : String) : Cache :=
  { cache with
    generation := cache.generation + 1
    hierarchies := (cache.hierarchies.removeWhere fun key hierarchy ↦
      key == name || hierarchy.contains name).2
    resolved := (cache.resolved.removeWhere fun _ entry ↦ entry.dependsOn name).2 }

/-- Drop everything, forget the counts and start a new generation. -/
def clear (cache : Cache) : Cache :=
  { cache with
    generation := cache.generation + 1
    hierarchies := cache.hierarchies.clear
    resolved := cache.resolved.clear }

/-- Forget what an upkeep asks for. -/
def maintain (cache : Cache) : Upkeep → Cache
  | .invalidate name => cache.invalidate name
  | .clear => cache.clear

/-- Carry out upkeeps in turn. -/
def maintainAll (cache : Cache) (upkeeps : List Upkeep) : Cache :=
  upkeeps.foldl maintain cache

/-- A duration of whole seconds as text. -/
def durationText (seconds : Nat) : String :=
  if seconds = 0 then "0ns" else toString seconds ++ "s"

/-- The cache in one line. -/
def description (cache : Cache) : String :=
  "InheritanceCache \x7b hierarchies: " ++ toString cache.hierarchies.size ++
    ", resolved: " ++ toString cache.resolved.size ++
    ", capacity: " ++ toString cache.resolved.capacity ++
    ", generation: " ++ toString cache.generation ++
    ", sweep_interval: " ++ durationText cache.sweepInterval ++ " \x7d"

end Cache

end TemplateInheritance
