import TemplateInheritance.Resolution

/-!
# Runs over a shared cache

A cache is reached in any order by resolvers, invalidations and sweeps. Seen from the cache alone,
the resolvers may differ in everything. A site is a store of templates with one way of resolving
them, whichever processor is asked. Its cache is kept in step by announcing every change of a
stored template.
-/

namespace TemplateInheritance

/-- What reaches a shared cache. -/
inductive Access where
  | resolve (resolver : Resolver) (hooks : Hooks) (t : SharedTemplate) (context : Context)
  | maintain (upkeep : Upkeep)
  | sweep

namespace Cache

/-- The cache after an access that begins at `now`. -/
def access (cache : Cache) (now : Nat) : Access → Cache
  | .resolve resolver hooks t context => (resolver.resolveWith hooks cache now t context).cache
  | .maintain upkeep => cache.maintain upkeep
  | .sweep => (cache.sweepExpired now).2

/-- The cache after a run of accesses, each with the reading at which it begins. -/
def run (cache : Cache) (accesses : List (Nat × Access)) : Cache :=
  accesses.foldl (fun cache (now, access) ↦ cache.access now access) cache

/-- What every access keeps holds after every run. -/
theorem run_preserves {holds : Cache → Prop}
    (hstep : ∀ cache now access, holds cache → holds (cache.access now access)) {cache : Cache}
    (hcache : holds cache) (accesses : List (Nat × Access)) : holds (cache.run accesses) := by
  induction accesses generalizing cache with
  | nil => exact hcache
  | cons first rest ih => exact ih (hstep cache first.1 first.2 hcache)

end Cache

/-- A resolver with the cache that it works over, and a clock. -/
structure Site where
  resolver : Resolver
  cache : Cache
  clock : Nat

namespace Site

/-- What can happen at a site. A resolution is asked for by the name of a stored template. -/
inductive Event where
  | resolve (name : String) (context : Context) (hooks : Hooks)
  | maintain (upkeep : Upkeep)
  | sweep
  | wait (readings : Nat)
  | put (t : Template)
  | remove (name : String)

/-- A site with an empty cache. -/
def new (resolver : Resolver) (settings : CacheSettings) (clock : Nat) : Site :=
  ⟨resolver, .new settings clock, clock⟩

/-- The template stored under that name. -/
def stored? (site : Site) (name : String) : Option SharedTemplate :=
  site.resolver.loader.find? name

/-- Put other templates in the store, or take some away. -/
def changeStore (site : Site) (change : Loader → Loader) : Site :=
  { site with resolver := { site.resolver with loader := change site.resolver.loader } }

/-- The site after an event. -/
def step (site : Site) : Event → Site
  | .resolve name context hooks =>
    match site.stored? name with
    | none => site
    | some t =>
      { site with
        cache := site.cache.access site.clock (.resolve site.resolver hooks t context)
        clock := site.clock + Resolver.readings }
  | .maintain upkeep => { site with cache := site.cache.maintain upkeep }
  | .sweep => { site with cache := (site.cache.sweepExpired site.clock).2 }
  | .wait readings => { site with clock := site.clock + readings }
  | .put t =>
    { site.changeStore (·.insert ⟨t, site.clock⟩) with clock := site.clock + 1 }
  | .remove name => site.changeStore (·.remove name)

/-- The site after a run of events. -/
def run (site : Site) (events : List Event) : Site := events.foldl step site

/-- What a site answers to an event: to a resolution its outcome. -/
def reply? (site : Site) : Event → Option (Except Failure Template)
  | .resolve name context hooks =>
    (site.stored? name).map fun t ↦
      ((site.resolver.resolveWith hooks site.cache site.clock t context).outcome).map (·.template)
  | _ => none

/-- What a site would answer without a cache. -/
def freshReply? (site : Site) : Event → Option (Except Failure Template)
  | .resolve name context _ =>
    (site.stored? name).map fun t ↦
      (site.resolver.resolveFresh t.template context).mapError .error
  | _ => none

/-- What is answered to each event of a run, by the site as the events before have left it. -/
def answers (answer : Site → Event → Option (Except Failure Template)) (site : Site) :
    List Event → List (Option (Except Failure Template))
  | [] => []
  | event :: rest => answer site event :: answers answer (site.step event) rest

/-- The names whose change is still to be announced after an event. -/
def Event.unannounced (stale : List String) : Event → List String
  | resolve .. | sweep | wait _ => stale
  | maintain (.invalidate name) => stale.filter (· != name)
  | maintain .clear => []
  | put t => t.name :: stale
  | remove name => name :: stale

/-- Whether every change is announced before the next resolution. -/
def announces (stale : List String) : List Event → Bool
  | [] => true
  | event :: rest =>
    (match event with
      | .resolve .. => stale.isEmpty
      | _ => true) && announces (event.unannounced stale) rest

/-- The contexts of the resolutions in a run. -/
def contextsOf (events : List Event) : List Context :=
  events.filterMap fun
    | .resolve _ context _ => some context
    | _ => none

end Site

end TemplateInheritance
