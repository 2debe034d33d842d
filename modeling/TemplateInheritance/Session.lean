import TemplateInheritance.Resolution

/-!
# Sessions

Several processors work over loaders and caches that they may share. A session is run by commands;
each goes to one processor and is answered by one reply. The clock of the session moves on with
every command, so what one command makes carries stamps that no other command's results carry.
-/

namespace TemplateInheritance

/-- A resolver whose loader and cache are those of the session at the given positions. -/
structure Processor where
  loader : Nat
  cache : Nat
  evaluate : Evaluator
  maxSuperDepth : Nat

/-- The state shared by the commands of a session. -/
structure Session where
  loaders : List Loader
  caches : List Cache
  processors : List Processor
  clock : Nat

/-- A template given with the command, or the stored template of a name. -/
inductive Source where
  | given (t : Template)
  | stored (name : String)

/-- When a direct store is let through: always, or in the present or a named generation only. -/
inductive StoreGuard where
  | always
  | present
  | inGeneration (generation : Nat)

/-- What a processor can be asked to do. -/
inductive Command where
  | resolve (source : Source) (context : Context)
  | build (source : Source) (context : Context)
  | invalidate (name : String)
  | clear
  | sweep
  | getHierarchy (name : String)
  | storeHierarchy (source : Source) (context : Context) (key : Option String)
      (guard : StoreGuard)
  | getResolved (name digest fullDigest : String)
  | storeResolved (name digest fullDigest : String) (t : Template) (chain : List String)
      (guard : StoreGuard)
  | insert (t : Template)
  | remove (name : String)
  | load (name : String)
  | inspect (name : String)
  | describe

/-- What a processor answers. -/
inductive Reply where
  | nothing
  | flag (value : Bool)
  | count (value : Nat)
  | names (values : List String)
  | tree (t : SharedTemplate)
  | resolved (t : SharedTemplate) (isSource : Bool)
  | hierarchy (h : Hierarchy)
  | failed (failure : Failure)
  | notLoaded (error : LoadError)
  | loaderState (size : Nat) (present : Bool)
  | description (cache processor : String)

namespace Session

/-- The reading at which a session's clock starts. -/
def clockStart : Nat := second

/-- A session without loaders, caches and processors. -/
def empty : Session := ⟨[], [], [], clockStart⟩

/-- Add a cache. -/
def addCache (session : Session) (settings : CacheSettings) : Session :=
  { session with
    caches := session.caches ++ [.new settings session.clock]
    clock := session.clock + 1 }

/-- Add a loader holding the listed templates; the last one of a name stays. -/
def addLoader (session : Session) (templates : List Template) (loader : Loader) : Session :=
  let filled := templates.zipIdx.foldl
    (fun loader (t, i) ↦ loader.insert ⟨t, session.clock + i⟩) loader
  { session with
    loaders := session.loaders ++ [filled]
    clock := session.clock + templates.length }

/-- Add a processor. -/
def addProcessor (session : Session) (processor : Processor) : Session :=
  { session with processors := session.processors ++ [processor] }

/-- The cache that watched names of a loader act on: that of the first processor using it. -/
def cacheBehind? (session : Session) (loader : Nat) : Option Nat :=
  (session.processors.find? (·.loader = loader)).map (·.cache)

/-- Let the loading of names act on the cache behind the loader. -/
def afterLoads (session : Session) (loader : Nat) (loaded : List String) : Session :=
  match session.cacheBehind? loader, session.loaders[loader]? with
  | some cache, some l =>
    { session with
      caches := session.caches.modify cache fun c ↦ c.maintainAll (l.upkeepOf loaded) }
  | _, _ => session

/-- Put a cache in its place. -/
def setCache (session : Session) (position : Nat) (cache : Cache) : Session :=
  { session with caches := session.caches.set position cache }

/-- Put a loader in its place. -/
def setLoader (session : Session) (position : Nat) (loader : Loader) : Session :=
  { session with loaders := session.loaders.set position loader }

/-- The template a command is about. One given with the command is made at the present reading. -/
def template? (session : Session) (loader : Loader) : Source → Except LoadError SharedTemplate
  | .given t => .ok ⟨t, session.clock⟩
  | .stored name =>
    match loader.find? name with
    | some t => .ok t
    | none => .error (.notFound name)

/-- Build a hierarchy without keeping it, and let the loading act on the cache behind the loader. -/
def build (session : Session) (processor : Processor) (loader : Loader) (t : Template)
    (context : Context) : Session × Except ResolveError Hierarchy :=
  let ascent := Hierarchy.build loader processor.evaluate context t
  (session.afterLoads processor.loader ascent.loaded, ascent.outcome)

/-- The reply to a direct store: under a guard it tells whether the value was stored. -/
def storeReply (guard : StoreGuard) : StoreOutcome → Reply
  | .clockOverflow => .failed .clockOverflow
  | outcome =>
    match guard with
    | .always => .nothing
    | _ => .flag (outcome = .stored)

/-- The admission that a guard stands for. -/
def guardAdmission (cache : Cache) : StoreGuard → Admission
  | .always | .present => .agree
  | .inGeneration generation => cache.admission generation

/-- Resolve a template and take over what the resolution did to the cache. -/
def resolve (session : Session) (processor : Processor) (loader : Loader) (cache : Cache)
    (t : SharedTemplate) (context : Context) : Session × Reply :=
  let watching := session.cacheBehind? processor.loader = some processor.cache
  let resolver : Resolver := ⟨loader, processor.evaluate, processor.maxSuperDepth⟩
  let resolution := resolver.resolve watching cache (session.clock + 1) t context
  let session := session.setCache processor.cache resolution.cache
  let session :=
    if watching then session else session.afterLoads processor.loader resolution.loaded
  match resolution.outcome with
  | .error failure => (session, .failed failure)
  | .ok tree => (session, .resolved tree (tree.stamp = t.stamp))

/-- Carry out a command for a processor with its loader and cache. -/
def perform (session : Session) (processor : Processor) (loader : Loader) (cache : Cache) :
    Command → Session × Reply
  | .resolve source context =>
    match session.template? loader source with
    | .error e => (session, .notLoaded e)
    | .ok t => session.resolve processor loader cache t context
  | .build source context =>
    match session.template? loader source with
    | .error e => (session, .notLoaded e)
    | .ok t =>
      match session.build processor loader t.template context with
      | (session, .error e) => (session, .failed (.error e))
      | (session, .ok h) => (session, .hierarchy h)
  | .invalidate name => (session.setCache processor.cache (cache.invalidate name), .nothing)
  | .clear => (session.setCache processor.cache cache.clear, .nothing)
  | .sweep =>
    let (removed, cache) := cache.sweepExpired session.clock
    (session.setCache processor.cache cache, .count removed)
  | .getHierarchy name =>
    let (found, cache) := cache.getHierarchy session.clock name
    (session.setCache processor.cache cache, (found.map fun h ↦ .names h.names).getD .nothing)
  | .storeHierarchy source context key guard =>
    match session.template? loader source with
    | .error e => (session, .notLoaded e)
    | .ok t =>
      match session.build processor loader t.template context with
      | (session, .error e) => (session, .failed (.error e))
      | (session, .ok h) =>
        let cache := session.caches[processor.cache]?.getD cache
        let (outcome, cache) := cache.storeHierarchy (session.clock + 1) (key.getD t.name) h
          (guardAdmission cache guard)
        (session.setCache processor.cache cache, storeReply guard outcome)
  | .getResolved name digest fullDigest =>
    let (found, cache) := cache.getResolved session.clock name digest fullDigest
    (session.setCache processor.cache cache, (found.map Reply.tree).getD .nothing)
  | .storeResolved name digest fullDigest t chain guard =>
    let (outcome, cache) := cache.storeResolved (session.clock + 1) name digest
      ⟨⟨t, session.clock⟩, fullDigest, chain⟩ (guardAdmission cache guard)
    (session.setCache processor.cache cache, storeReply guard outcome)
  | .insert t =>
    let shared : SharedTemplate := ⟨t, session.clock⟩
    (session.setLoader processor.loader (loader.insert shared), .tree shared)
  | .remove name =>
    (session.setLoader processor.loader (loader.remove name),
      ((loader.find? name).map Reply.tree).getD .nothing)
  | .load name =>
    match loader.load name with
    | .error e => (session, .notLoaded e)
    | .ok t => (session.afterLoads processor.loader [name], .tree t)
  | .inspect name =>
    (session, .loaderState loader.stored.length (loader.find? name).isSome)
  | .describe =>
    (session, .description cache.description
      ("InheritanceProcessor \x7b cache: " ++ cache.description ++
        ", max_super_depth: " ++ toString processor.maxSuperDepth ++ ", .. \x7d"))

/-- How far the clock moves with a command. -/
def commandReadings : Nat := Resolver.readings + 2

/-- Carry out a command for the processor at a position, and move the clock on. -/
def step (session : Session) (position : Nat) (command : Command) : Session × Reply :=
  let (next, reply) : Session × Reply :=
    match session.processors[position]? with
    | none => (session, .nothing)
    | some processor =>
      match session.loaders[processor.loader]?, session.caches[processor.cache]? with
      | some loader, some cache => session.perform processor loader cache command
      | _, _ => (session, .nothing)
  ({ next with clock := session.clock + commandReadings }, reply)

/-- The cache of the processor at a position. -/
def cacheOf? (session : Session) (position : Nat) : Option Cache := do
  session.caches[(← session.processors[position]?).cache]?

/-- Wait until a sweep has ended that the processor's cache began at `since` or later. -/
def settle (session : Session) (position since : Nat) : Session :=
  match session.processors[position]?, session.cacheOf? position with
  | some processor, some cache =>
    if since ≤ cache.lastSweep then
      session.setCache processor.cache (cache.sweepExpired session.clock).2
    else session
  | _, _ => session

end Session

end TemplateInheritance
