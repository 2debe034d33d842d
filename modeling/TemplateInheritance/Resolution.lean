import TemplateInheritance.Cache.Tiers
import TemplateInheritance.Context.Digest
import TemplateInheritance.Hierarchy.Build
import TemplateInheritance.Super.Substitution

/-!
# Resolving templates

A template with inheritance directives is answered from the cache, or its hierarchy is taken from
the cache or built, merged and substituted, and the result kept. A result that no context can
change is kept under one fixed digest, any other under the digest of its context. Without the
cache, resolution is `Resolver.resolveFresh`.

Loading a parent may make the cache forget something. What it does is a parameter of resolution,
given the names that were loaded.
-/

namespace TemplateInheritance

/-- What a resolution works with: where templates come from, how targets are evaluated and how
deep calls of `super()` may nest. -/
structure Resolver where
  loader : Loader
  evaluate : Evaluator
  maxSuperDepth : Nat

/-- Why a resolution gave no tree. -/
inductive Failure where
  | error (error : ResolveError)
  | clockOverflow
deriving DecidableEq

/-- The message of a clock that cannot show a reading. -/
def clockOverflowText : String := "overflow when adding duration to instant"

/-- What a resolution came to: its outcome, the cache after it and the names it loaded. -/
structure Resolution where
  outcome : Except Failure SharedTemplate
  cache : Cache
  loaded : List String

/-- What the loading of the listed names, in this order, does to the cache in use. -/
abbrev Hooks := List String → List Upkeep

/-- Loading leaves the cache alone. -/
def Hooks.none : Hooks := fun _ ↦ []

/-- The digest under which the result of a hierarchy is kept: that of the context if another context
may give another hierarchy. -/
def Hierarchy.keptDigest (h : Hierarchy) (context : Context) : String :=
  if h.isDynamic then context.digest else staticDigest

/-- The full digest with which the result of a hierarchy is kept. -/
def Hierarchy.keptFullDigest (h : Hierarchy) (context : Context) : String :=
  if h.isDynamic then context.fullDigest else staticDigest

namespace Resolver

/-- How many clock readings a resolution may use. -/
def readings : Nat := 5

/-- The resolution that uses no cache and takes no shortcut: the hierarchy is built and merged, and
every call substituted. -/
def resolveFresh (resolver : Resolver) (t : Template) (context : Context) :
    Except ResolveError Template :=
  match (Hierarchy.build resolver.loader resolver.evaluate context t).outcome with
  | .error e => .error e
  | .ok hierarchy => ((hierarchy.resolveMerged resolver.maxSuperDepth).run []).1

/-- Resolve a hierarchy and keep the tree, in the generation in which the resolution began. -/
def finish (resolver : Resolver) (cache : Cache) (now begun : Nat) (name : String)
    (context : Context) (hierarchy : Hierarchy) (loaded : List String) : Resolution :=
  match hierarchy.resolve resolver.maxSuperDepth with
  | .error e => ⟨.error (.error e), cache, loaded⟩
  | .ok tree =>
    let shared : SharedTemplate := ⟨tree, now⟩
    match cache.storeResolved now name (hierarchy.keptDigest context)
        ⟨shared, hierarchy.keptFullDigest context, hierarchy.names⟩ (cache.admission begun) with
    | (.clockOverflow, cache) => ⟨.error .clockOverflow, cache, loaded⟩
    | (_, cache) => ⟨.ok shared, cache, loaded⟩

/-- Build the hierarchy, keep it if no context can change it, and resolve it. What the loading of
parents does to the cache is done before anything is kept. -/
def rebuild (resolver : Resolver) (hooks : Hooks) (cache : Cache) (now begun : Nat)
    (t : Template) (context : Context) : Resolution :=
  let ascent := Hierarchy.build resolver.loader resolver.evaluate context t
  let cache := cache.maintainAll (hooks ascent.loaded)
  match ascent.outcome with
  | .error e => ⟨.error (.error e), cache, ascent.loaded⟩
  | .ok hierarchy =>
    if hierarchy.isDynamic then
      resolver.finish cache (now + 1) begun t.name context hierarchy ascent.loaded
    else
      match cache.storeHierarchy now t.name hierarchy (cache.admission begun) with
      | (.clockOverflow, cache) => ⟨.error .clockOverflow, cache, ascent.loaded⟩
      | (_, cache) => resolver.finish cache (now + 1) begun t.name context hierarchy ascent.loaded

/-- Answer with the tree kept for the context, or build the hierarchy. -/
def resolveInContext (resolver : Resolver) (hooks : Hooks) (cache : Cache) (now begun : Nat)
    (t : Template) (context : Context) : Resolution :=
  match cache.getResolved now t.name context.digest context.fullDigest with
  | (some tree, cache) => ⟨.ok tree, cache, []⟩
  | (none, cache) => resolver.rebuild hooks cache (now + 1) begun t context

/-- Resolve a template. One without directives is answered as it is. A template whose own parent
is named literally is looked up under the fixed digest first and then by its hierarchy. -/
def resolveWith (resolver : Resolver) (hooks : Hooks) (cache : Cache) (now : Nat)
    (t : SharedTemplate) (context : Context) : Resolution :=
  let begun := cache.generation
  if !t.template.hasDirectives then ⟨.ok t, cache, []⟩
  else if t.template.hasDynamicExtends then
    resolver.resolveInContext hooks cache (now + 2) begun t.template context
  else
    match cache.getResolved now t.name staticDigest staticDigest with
    | (some tree, cache) => ⟨.ok tree, cache, []⟩
    | (none, cache) =>
      match cache.getHierarchy (now + 1) t.name with
      | (some hierarchy, cache) =>
        resolver.finish cache (now + 4) begun t.name context hierarchy []
      | (none, cache) =>
        resolver.resolveInContext hooks cache (now + 2) begun t.template context

/-- Resolve a template over a cache that the watched names of the loader act on, or do not. -/
def resolve (resolver : Resolver) (watching : Bool) (cache : Cache) (now : Nat)
    (t : SharedTemplate) (context : Context) : Resolution :=
  resolver.resolveWith (if watching then resolver.loader.upkeepOf else .none) cache now t context

end Resolver

end TemplateInheritance
