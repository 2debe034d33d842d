import TemplateInheritance.Proofs.Losses
import TemplateInheritance.Sharing

/-!
# The course of a resolution

A resolution is taken apart once. Each of its last stages has an equation for every way in which it
can end, and each way through the whole is named with what the lookups along it answered and the
caches they left. What loading does to the cache has no say in the way that is taken.
-/

namespace TemplateInheritance

namespace Resolver

/-! ### The last stages -/

section Stages

variable {resolver : Resolver} {hooks : Hooks} {cache : Cache} {now begun : Nat}
  {context : Context} {name : String} {h : Hierarchy} {loaded : List String} {t : Template}

theorem finish_of_error {e : ResolveError} (herror : h.resolve resolver.maxSuperDepth = .error e) :
    resolver.finish cache now begun name context h loaded = ⟨.error (.error e), cache, loaded⟩ := by
  rw [finish, herror]

/-- A tree is answered once it was handed to the cache, whether the cache keeps it or not. -/
theorem finish_of_ok {tree : Template} (htree : h.resolve resolver.maxSuperDepth = .ok tree) :
    resolver.finish cache now begun name context h loaded =
      let stored := cache.storeResolved now name (h.keptDigest context)
        ⟨⟨tree, now⟩, h.keptFullDigest context, h.names⟩ (cache.admission begun)
      ⟨if stored.1 = .clockOverflow then .error .clockOverflow else .ok ⟨tree, now⟩, stored.2,
        loaded⟩ := by
  rw [finish, htree]
  simp only
  generalize cache.storeResolved _ _ _ _ _ = stored
  obtain ⟨outcome, after⟩ := stored
  cases outcome <;> rfl

theorem rebuild_of_error {e : ResolveError}
    (hbuild : (Hierarchy.build resolver.loader resolver.evaluate context t).outcome = .error e) :
    resolver.rebuild hooks cache now begun t context =
      let loaded := (Hierarchy.build resolver.loader resolver.evaluate context t).loaded
      ⟨.error (.error e), cache.maintainAll (hooks loaded), loaded⟩ := by
  rw [rebuild]
  simp only [hbuild]

/-- A hierarchy that depends on the context is not kept. -/
theorem rebuild_of_dynamic
    (hbuild : (Hierarchy.build resolver.loader resolver.evaluate context t).outcome = .ok h)
    (hdynamic : h.isDynamic = true) :
    resolver.rebuild hooks cache now begun t context =
      let loaded := (Hierarchy.build resolver.loader resolver.evaluate context t).loaded
      resolver.finish (cache.maintainAll (hooks loaded)) (now + 1) begun t.name context h
        loaded := by
  rw [rebuild]
  simp only [hbuild, hdynamic, if_true]

/-- Any other hierarchy is handed to the cache before it is resolved. -/
theorem rebuild_of_static
    (hbuild : (Hierarchy.build resolver.loader resolver.evaluate context t).outcome = .ok h)
    (hstatic : h.isDynamic = false) :
    resolver.rebuild hooks cache now begun t context =
      let loaded := (Hierarchy.build resolver.loader resolver.evaluate context t).loaded
      let maintained := cache.maintainAll (hooks loaded)
      let stored := maintained.storeHierarchy now t.name h (maintained.admission begun)
      if stored.1 = .clockOverflow then ⟨.error .clockOverflow, stored.2, loaded⟩
      else resolver.finish stored.2 (now + 1) begun t.name context h loaded := by
  rw [rebuild]
  simp only [hbuild, hstatic, Bool.false_eq_true, if_false]
  generalize Cache.storeHierarchy _ _ _ _ _ = stored
  obtain ⟨outcome, after⟩ := stored
  cases outcome <;> rfl

/-! ### What the last stages do to the cache -/

/-- What holds of a cache and outlasts the store of a tree holds after a hierarchy is finished. -/
theorem finish_preserves (holds : Cache → Prop) (hcache : holds cache)
    (hstore : ∀ tree admission, h.resolve resolver.maxSuperDepth = .ok tree →
      holds (cache.storeResolved now name (h.keptDigest context)
        ⟨⟨tree, now⟩, h.keptFullDigest context, h.names⟩ admission).2) :
    holds (resolver.finish cache now begun name context h loaded).cache := by
  cases htree : h.resolve resolver.maxSuperDepth with
  | error e =>
    rw [finish_of_error htree]
    exact hcache
  | ok tree =>
    rw [finish_of_ok htree]
    exact hstore tree (cache.admission begun) htree

/-- What holds of a cache after the upkeeps that come with loading, and outlasts the two kinds of
stores, holds after a hierarchy is built anew. -/
theorem rebuild_preserves (holds : Cache → Prop)
    (hmaintained : holds (cache.maintainAll
      (hooks (Hierarchy.build resolver.loader resolver.evaluate context t).loaded)))
    (hhierarchy : ∀ before now admission h, holds before →
      (Hierarchy.build resolver.loader resolver.evaluate context t).outcome = .ok h →
      h.isDynamic = false → holds (before.storeHierarchy now t.name h admission).2)
    (htree : ∀ before now admission h tree, holds before →
      (Hierarchy.build resolver.loader resolver.evaluate context t).outcome = .ok h →
      h.resolve resolver.maxSuperDepth = .ok tree →
      holds (before.storeResolved now t.name (h.keptDigest context)
        ⟨⟨tree, now⟩, h.keptFullDigest context, h.names⟩ admission).2) :
    holds (resolver.rebuild hooks cache now begun t context).cache := by
  cases hbuild : (Hierarchy.build resolver.loader resolver.evaluate context t).outcome with
  | error e =>
    rw [rebuild_of_error hbuild]
    exact hmaintained
  | ok h =>
    cases hdynamic : h.isDynamic with
    | true =>
      rw [rebuild_of_dynamic hbuild hdynamic]
      exact finish_preserves holds hmaintained fun tree admission ↦
        htree _ _ admission h tree hmaintained hbuild
    | false =>
      have hstored := fun admission ↦
        hhierarchy _ now admission h hmaintained hbuild hdynamic
      rw [rebuild_of_static hbuild hdynamic]
      simp only
      split
      · exact hstored _
      · exact finish_preserves holds (hstored _) fun tree admission ↦
          htree _ _ admission h tree (hstored _) hbuild

@[simp] theorem generation_finish :
    (resolver.finish cache now begun name context h loaded).cache.generation = cache.generation :=
  finish_preserves (·.generation = cache.generation) rfl fun _ _ _ ↦ rfl

/-- Every upkeep that comes with loading starts a generation, and nothing else does. -/
@[simp] theorem generation_rebuild :
    (resolver.rebuild hooks cache now begun t context).cache.generation = cache.generation +
      (hooks (Hierarchy.build resolver.loader resolver.evaluate context t).loaded).length :=
  rebuild_preserves (·.generation = cache.generation + _) (cache.generation_maintainAll _)
    (fun _ _ _ _ hstored _ _ ↦ hstored) fun _ _ _ _ _ hstored _ _ ↦ hstored

/-- Finishing in another generation leaves the cache as it is. -/
theorem cache_finish_of_refused (hrefused : cache.admission begun = .refuse) :
    (resolver.finish cache now begun name context h loaded).cache = cache := by
  cases htree : h.resolve resolver.maxSuperDepth with
  | error e => rw [finish_of_error htree]
  | ok tree =>
    rw [finish_of_ok htree, hrefused]
    rfl

/-- Where loading disturbs the cache, nothing is stored. -/
theorem cache_rebuild_of_disturbed
    (hdisturbed : hooks (Hierarchy.build resolver.loader resolver.evaluate context t).loaded ≠ []) :
    (resolver.rebuild hooks cache now cache.generation t context).cache =
      cache.maintainAll
        (hooks (Hierarchy.build resolver.loader resolver.evaluate context t).loaded) := by
  have hrefused := cache.admission_maintainAll
    (hooks (Hierarchy.build resolver.loader resolver.evaluate context t).loaded)
  rw [if_neg hdisturbed] at hrefused
  cases hbuild : (Hierarchy.build resolver.loader resolver.evaluate context t).outcome with
  | error e => rw [rebuild_of_error hbuild]
  | ok h =>
    cases hdynamic : h.isDynamic with
    | true =>
      rw [rebuild_of_dynamic hbuild hdynamic]
      exact cache_finish_of_refused hrefused
    | false =>
      rw [rebuild_of_static hbuild hdynamic]
      simp only [hrefused]
      exact cache_finish_of_refused hrefused

/-! ### What the last stages answer -/

theorem loaded_finish :
    (resolver.finish cache now begun name context h loaded).loaded = loaded := by
  cases htree : h.resolve resolver.maxSuperDepth with
  | error e => rw [finish_of_error htree]
  | ok tree => rw [finish_of_ok htree]

theorem loaded_rebuild :
    (resolver.rebuild hooks cache now begun t context).loaded =
      (Hierarchy.build resolver.loader resolver.evaluate context t).loaded := by
  cases hbuild : (Hierarchy.build resolver.loader resolver.evaluate context t).outcome with
  | error e => rw [rebuild_of_error hbuild]
  | ok h =>
    cases hdynamic : h.isDynamic with
    | true =>
      rw [rebuild_of_dynamic hbuild hdynamic]
      exact loaded_finish
    | false =>
      rw [rebuild_of_static hbuild hdynamic]
      simp only
      split
      · rfl
      · exact loaded_finish

/-- While the clock can show the expiry, finishing a hierarchy gives its tree or its error. -/
theorem outcome_finish (hclock : (deadline? now cache.resolved.lifetime).isSome) :
    (resolver.finish cache now begun name context h loaded).outcome =
      ((h.resolve resolver.maxSuperDepth).map (SharedTemplate.mk · now)).mapError .error := by
  cases htree : h.resolve resolver.maxSuperDepth with
  | error e =>
    rw [finish_of_error htree]
    rfl
  | ok tree =>
    rw [finish_of_ok htree]
    exact if_neg (Table.store_ne_clockOverflow hclock)

/-- While the clock can show the expiries, rebuilding gives what building and resolving give. -/
theorem outcome_rebuild (hhierarchies : (deadline? now cache.hierarchies.lifetime).isSome)
    (hresolved : (deadline? (now + 1) cache.resolved.lifetime).isSome) :
    (resolver.rebuild hooks cache now begun t context).outcome =
      ((Hierarchy.build resolver.loader resolver.evaluate context t).outcome.bind fun h ↦
        (h.resolve resolver.maxSuperDepth).map (SharedTemplate.mk · (now + 1))).mapError .error := by
  have hrest := cache.restOf_maintainAll
    (hooks (Hierarchy.build resolver.loader resolver.evaluate context t).loaded)
  rw [← hrest.hierarchies.lifetime] at hhierarchies
  rw [← hrest.resolved.lifetime] at hresolved
  cases hbuild : (Hierarchy.build resolver.loader resolver.evaluate context t).outcome with
  | error e =>
    rw [rebuild_of_error hbuild]
    rfl
  | ok h =>
    cases hdynamic : h.isDynamic with
    | true =>
      rw [rebuild_of_dynamic hbuild hdynamic]
      exact outcome_finish hresolved
    | false =>
      rw [rebuild_of_static hbuild hdynamic]
      simp only
      rw [if_neg (Cache.storeHierarchy_ne_clockOverflow hhierarchies)]
      exact outcome_finish hresolved

end Stages

/-! ### The way through -/

section Passages

variable (resolver : Resolver) (cache : Cache) (now : Nat) (t : SharedTemplate) (context : Context)

/-- Nothing was found before the context is asked for: of a template whose parent the context
chooses, nothing was looked up, and of any other, neither a tree for all contexts nor a hierarchy
is kept. The last cache is the one that these lookups leave. -/
inductive Unserved : Cache → Prop where
  | dynamic (hdynamic : t.template.hasDynamicExtends = true) : Unserved cache
  | static (hstatic : t.template.hasDynamicExtends = false)
      (hfixed : (cache.getResolved now t.name staticDigest staticDigest).1 = none)
      (hkept : ((cache.getResolved now t.name staticDigest staticDigest).2.getHierarchy (now + 1)
        t.name).1 = none) :
      Unserved ((cache.getResolved now t.name staticDigest staticDigest).2.getHierarchy (now + 1)
        t.name).2

/-- The ways of a resolution: no directives, a tree kept for all contexts, a kept hierarchy, a tree
kept for the context at hand, or a hierarchy built anew. -/
inductive Passage : Prop where
  | unchanged (hplain : t.template.hasDirectives = false)
      (hresult : ∀ hooks, resolver.resolveWith hooks cache now t context = ⟨.ok t, cache, []⟩)
  | fixed (hstatic : t.template.hasDynamicExtends = false) (tree : SharedTemplate)
      (hfound : (cache.getResolved now t.name staticDigest staticDigest).1 = some tree)
      (hresult : ∀ hooks, resolver.resolveWith hooks cache now t context =
        ⟨.ok tree, (cache.getResolved now t.name staticDigest staticDigest).2, []⟩)
  | kept (hstatic : t.template.hasDynamicExtends = false) (h : Hierarchy)
      (hfound : ((cache.getResolved now t.name staticDigest staticDigest).2.getHierarchy (now + 1)
        t.name).1 = some h)
      (hresult : ∀ hooks, resolver.resolveWith hooks cache now t context =
        resolver.finish ((cache.getResolved now t.name staticDigest staticDigest).2.getHierarchy
          (now + 1) t.name).2 (now + 4) cache.generation t.name context h [])
  | inContext (before : Cache) (hunserved : Unserved cache now t before) (tree : SharedTemplate)
      (hfound : (before.getResolved (now + 2) t.name context.digest context.fullDigest).1 =
        some tree)
      (hresult : ∀ hooks, resolver.resolveWith hooks cache now t context =
        ⟨.ok tree, (before.getResolved (now + 2) t.name context.digest context.fullDigest).2, []⟩)
  | rebuilt (before : Cache) (hunserved : Unserved cache now t before)
      (hmissed : (before.getResolved (now + 2) t.name context.digest context.fullDigest).1 = none)
      (hresult : ∀ hooks, resolver.resolveWith hooks cache now t context =
        resolver.rebuild hooks
          (before.getResolved (now + 2) t.name context.digest context.fullDigest).2 (now + 3)
          cache.generation t.template context)

variable {resolver cache now t context}

private theorem passage_inContext {before : Cache} (hunserved : Unserved cache now t before)
    (hasks : ∀ hooks, resolver.resolveWith hooks cache now t context =
      resolver.resolveInContext hooks before (now + 2) cache.generation t.template context) :
    Passage resolver cache now t context := by
  have hname : t.template.name = t.name := rfl
  rcases hget : before.getResolved (now + 2) t.name context.digest context.fullDigest with
    ⟨found, after⟩
  cases found with
  | none =>
    refine .rebuilt before hunserved (by rw [hget]) fun hooks ↦ ?_
    rw [hasks, resolveInContext, hname, hget]
  | some tree =>
    refine .inContext before hunserved tree (by rw [hget]) fun hooks ↦ ?_
    rw [hasks, resolveInContext, hname, hget]

variable (resolver cache now t context)

/-- Every resolution goes one of these ways, and loading has no say in which. -/
theorem passage : Passage resolver cache now t context := by
  cases hplain : t.template.hasDirectives with
  | false =>
    refine .unchanged hplain fun hooks ↦ ?_
    rw [resolveWith, hplain]
    rfl
  | true =>
  cases hdynamic : t.template.hasDynamicExtends with
  | true =>
    refine passage_inContext (.dynamic hdynamic) fun hooks ↦ ?_
    rw [resolveWith, hplain, hdynamic]
    rfl
  | false =>
  have hunserved : (cache.getResolved now t.name staticDigest staticDigest).1 = none →
      ((cache.getResolved now t.name staticDigest staticDigest).2.getHierarchy (now + 1)
        t.name).1 = none →
      Unserved cache now t ((cache.getResolved now t.name staticDigest
        staticDigest).2.getHierarchy (now + 1) t.name).2 := .static hdynamic
  rcases hfixed : cache.getResolved now t.name staticDigest staticDigest with ⟨found, first⟩
  rcases hkept : first.getHierarchy (now + 1) t.name with ⟨kept, second⟩
  rw [hfixed, hkept] at hunserved
  cases found with
  | some tree =>
    refine .fixed hdynamic tree (by rw [hfixed]) fun hooks ↦ ?_
    simp [resolveWith, hplain, hdynamic, hfixed]
  | none =>
  cases kept with
  | some h =>
    refine .kept hdynamic h (by rw [hfixed, hkept]) fun hooks ↦ ?_
    simp [resolveWith, hplain, hdynamic, hfixed, hkept]
  | none =>
    refine passage_inContext (hunserved rfl rfl) fun hooks ↦ ?_
    simp [resolveWith, hplain, hdynamic, hfixed, hkept]

end Passages

/-! ### What the lookups leave -/

section Lookups

variable {cache before : Cache} {now : Nat} {t : SharedTemplate}

/-- Lookups that find nothing take nothing but expired entries along. -/
theorem Unserved.agedFrom (hunserved : Unserved cache now t before) (hkeyed : cache.Keyed) :
    before.AgedFrom cache (now + 1) := by
  cases hunserved with
  | dynamic => exact .refl cache
  | static hstatic hfixed hkept =>
    have hfirst := Cache.agedFrom_getResolved hkeyed hfixed
    have hsecond := Cache.agedFrom_getHierarchy (hfirst.keyed hkeyed) hkept
    exact hsecond.trans (hfirst.mono (by omega))

theorem Unserved.generation (hunserved : Unserved cache now t before) :
    before.generation = cache.generation := by
  cases hunserved with
  | dynamic => rfl
  | static => simp

/-- When a hierarchy is built anew, nothing is missing from the cache but what has expired. -/
theorem Unserved.agedFrom_missed (hunserved : Unserved cache now t before) (hkeyed : cache.Keyed)
    {name digest fullDigest : String}
    (hmissed : (before.getResolved (now + 2) name digest fullDigest).1 = none) :
    (before.getResolved (now + 2) name digest fullDigest).2.AgedFrom cache (now + 2) := by
  have hbefore := hunserved.agedFrom hkeyed
  have hafter := Cache.agedFrom_getResolved (hbefore.keyed hkeyed) hmissed
  exact hafter.trans (hbefore.mono (by omega))

theorem Unserved.generation_missed (hunserved : Unserved cache now t before)
    (name digest fullDigest : String) :
    (before.getResolved (now + 2) name digest fullDigest).2.generation = cache.generation := by
  rw [Cache.generation_getResolved, hunserved.generation]

end Lookups

end Resolver

/-! ### Distinct keys -/

namespace Cache

variable {cache : Cache}

/-- A resolution keeps the keys of each table distinct. -/
theorem Keyed.resolveWith (hkeyed : cache.Keyed) (resolver : Resolver) (hooks : Hooks) (now : Nat)
    (t : SharedTemplate) (context : Context) :
    (resolver.resolveWith hooks cache now t context).cache.Keyed := by
  rcases resolver.passage cache now t context with
    ⟨-, hresult⟩ | ⟨-, tree, -, hresult⟩ | ⟨-, h, -, hresult⟩ |
    ⟨before, hunserved, tree, -, hresult⟩ | ⟨before, hunserved, hmissed, hresult⟩
  · rw [hresult]
    exact hkeyed
  · rw [hresult]
    exact hkeyed.getResolved _ _ _ _
  · rw [hresult]
    have hfound := (hkeyed.getResolved now t.name staticDigest staticDigest).getHierarchy (now + 1)
      t.name
    exact Resolver.finish_preserves Keyed hfound fun _ _ _ ↦ hfound.storeResolved _ _ _ _ _
  · rw [hresult]
    exact ((hunserved.agedFrom hkeyed).keyed hkeyed).getResolved _ _ _ _
  · rw [hresult]
    have hafter := (hunserved.agedFrom_missed hkeyed hmissed).keyed hkeyed
    apply Resolver.rebuild_preserves Keyed (hafter.maintainAll _)
    · intro stored stamp admission h hstored _ _
      exact hstored.storeHierarchy stamp t.template.name h admission
    · intro stored stamp admission h tree hstored _ _
      exact hstored.storeResolved stamp _ _ _ admission

theorem Keyed.access (hkeyed : cache.Keyed) (now : Nat) (access : Access) :
    (cache.access now access).Keyed := by
  cases access with
  | resolve resolver hooks t context => exact hkeyed.resolveWith resolver hooks now t context
  | maintain upkeep => exact hkeyed.maintain upkeep
  | sweep => exact hkeyed.sweepExpired now

theorem Keyed.run (hkeyed : cache.Keyed) (accesses : List (Nat × Access)) :
    (cache.run accesses).Keyed :=
  run_preserves (fun _ now access hbefore ↦ hbefore.access now access) hkeyed accesses

/-- In every cache that comes out of a run, the keys of each table are distinct. -/
theorem keyed_run_new (settings : CacheSettings) (start : Nat) (accesses : List (Nat × Access)) :
    ((new settings start).run accesses).Keyed :=
  (keyed_new settings start).run accesses

end Cache

end TemplateInheritance
