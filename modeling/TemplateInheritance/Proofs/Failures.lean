import TemplateInheritance.Proofs.Tiers

/-!
# What a failed resolution leaves behind

A resolution that ends with an error keeps no tree. But a hierarchy that no context can change is
kept before its calls are substituted, and it stays where that fails. So a failed resolution adds
the hierarchy that it has built, if that is of this kind and the cache was in want of it, and
otherwise nothing.
-/

namespace TemplateInheritance

namespace Cache

/-- The hierarchy stands under the key. -/
def HasHierarchy (cache : Cache) (key : String) (h : Hierarchy) : Prop :=
  ∃ entry ∈ cache.hierarchies.entries, entry.key = key ∧ entry.value = h

/-- The tree stands under the key. -/
def HasTree (cache : Cache) (key : String) (tree : ResolvedEntry) : Prop :=
  ∃ entry ∈ cache.resolved.entries, entry.key = key ∧ entry.value = tree

/-- What stands in the tables of the one cache stands in those of the other, under the same key and
with the same value. -/
abbrev AddsNothingTo (after before : Cache) : Prop := after.Every before.HasHierarchy before.HasTree

/-- At the reading `now`, no hierarchy is left to live under the name. -/
def Lacks (cache : Cache) (name : String) (now : Nat) : Prop :=
  ∀ entry ∈ cache.hierarchies.entries, entry.key = name → entry.isExpired now = true

theorem KeptFrom.addsNothingTo {after before : Cache} (hkept : after.KeptFrom before) :
    after.AddsNothingTo before := by
  constructor
  · intro entry hmem
    obtain ⟨source, hsource, hkey, hvalue, -⟩ := hkept.hierarchies.source entry hmem
    exact ⟨source, hsource, hkey, hvalue⟩
  · intro entry hmem
    obtain ⟨source, hsource, hkey, hvalue, -⟩ := hkept.resolved.source entry hmem
    exact ⟨source, hsource, hkey, hvalue⟩

/-- A lookup after one of a tree finds no hierarchy exactly when none is left to live. -/
theorem getHierarchy_second_eq_none_iff {cache : Cache} (hkeyed : cache.Keyed) (now : Nat)
    (name digest fullDigest : String) :
    ((cache.getResolved now name digest fullDigest).2.getHierarchy (now + 1) name).1 = none ↔
      cache.Lacks name (now + 1) := by
  have hhierarchies := cache.agedFrom_hierarchies_getResolved now name digest fullDigest
  rw [getHierarchy_eq_none_iff (hkeyed.getResolved now name digest fullDigest)]
  exact hhierarchies.forall_expired_iff (by omega) name

end Cache

namespace Resolver

/-- Building gives a hierarchy that no context can change, and the loading for it leaves the cache
alone. -/
structure BuildsLasting (resolver : Resolver) (hooks : Hooks) (t : Template) (context : Context)
    (h : Hierarchy) : Prop where
  built : (Hierarchy.build resolver.loader resolver.evaluate context t).outcome = .ok h
  static : h.isDynamic = false
  undisturbed : hooks (Hierarchy.build resolver.loader resolver.evaluate context t).loaded = []

variable {resolver : Resolver} {hooks : Hooks} {cache : Cache} {now : Nat} {context : Context}
  {e : ResolveError}

/-- Only a leaf whose parent is named literally has a hierarchy that no context can change. -/
theorem BuildsLasting.static_leaf {t : Template} {h : Hierarchy}
    (hbuilds : resolver.BuildsLasting hooks t context h) : t.hasDynamicExtends = false := by
  obtain ⟨rfl, -⟩ := (Hierarchy.build_eq_ok_iff _ _).mp hbuilds.built
  have hstatic := List.any_eq_false.mp hbuilds.static h.leaf List.mem_cons_self
  simpa using hstatic

/-- Where nothing was found for a leaf whose parent is named literally, the cache is in want of a
hierarchy. -/
theorem Unserved.lacks {t : SharedTemplate} {before : Cache}
    (hunserved : Unserved cache now t before) (hkeyed : cache.Keyed)
    (hstatic : t.template.hasDynamicExtends = false) : cache.Lacks t.name (now + 1) := by
  cases hunserved with
  | dynamic hdynamic => cases hdynamic.symm.trans hstatic
  | static _ _ hkept =>
    exact (Cache.getHierarchy_second_eq_none_iff hkeyed now t.name staticDigest staticDigest).mp
      hkept

/-- Finishing that fails leaves the cache as it is. -/
theorem cache_finish_of_failed {begun : Nat} {name : String} {h : Hierarchy} {loaded : List String}
    (hfailed : (resolver.finish cache now begun name context h loaded).outcome =
      .error (.error e)) :
    (resolver.finish cache now begun name context h loaded).cache = cache := by
  cases htree : h.resolve resolver.maxSuperDepth with
  | error e' => rw [finish_of_error htree]
  | ok tree =>
    rw [finish_of_ok htree] at hfailed
    simp only at hfailed
    split at hfailed <;> cases hfailed

/-- A hierarchy that is built to last is handed to a cache that agrees to keep it. -/
theorem rebuild_of_lasting {t : Template} {h : Hierarchy}
    (hbuilds : resolver.BuildsLasting hooks t context h) :
    resolver.rebuild hooks cache now cache.generation t context =
      let loaded := (Hierarchy.build resolver.loader resolver.evaluate context t).loaded
      let stored := cache.storeHierarchy now t.name h .agree
      if stored.1 = .clockOverflow then ⟨.error .clockOverflow, stored.2, loaded⟩
      else resolver.finish stored.2 (now + 1) cache.generation t.name context h loaded := by
  have hagreed : cache.admission cache.generation = .agree := if_pos rfl
  have hquiet : cache.maintainAll
      (hooks (Hierarchy.build resolver.loader resolver.evaluate context t).loaded) = cache := by
    rw [hbuilds.undisturbed]
    rfl
  rw [rebuild_of_static hbuilds.built hbuilds.static]
  simp only [hquiet, hagreed]

/-- Where rebuilding fails, it has kept the hierarchy that it has built to last, or nothing. -/
theorem rebuild_failed_cases {t : Template}
    (hfailed : (resolver.rebuild hooks cache now cache.generation t context).outcome =
      .error (.error e)) :
    ((∀ h, ¬resolver.BuildsLasting hooks t context h) ∧
        (resolver.rebuild hooks cache now cache.generation t context).cache.KeptFrom cache) ∨
      ∃ h, resolver.BuildsLasting hooks t context h ∧
        (cache.storeHierarchy now t.name h .agree).1 ≠ .clockOverflow ∧
        (resolver.rebuild hooks cache now cache.generation t context).cache =
          (cache.storeHierarchy now t.name h .agree).2 := by
  have hmaintained := cache.keptFrom_maintainAll
    (hooks (Hierarchy.build resolver.loader resolver.evaluate context t).loaded)
  by_cases hlasting : ∃ h, resolver.BuildsLasting hooks t context h
  · obtain ⟨h, hbuilds⟩ := hlasting
    rw [rebuild_of_lasting hbuilds] at hfailed ⊢
    simp only at hfailed ⊢
    by_cases hoverflow : (cache.storeHierarchy now t.name h .agree).1 = .clockOverflow
    · rw [if_pos hoverflow] at hfailed
      cases hfailed
    · rw [if_neg hoverflow] at hfailed ⊢
      exact .inr ⟨h, hbuilds, hoverflow, cache_finish_of_failed hfailed⟩
  · refine .inl ⟨fun h hbuilds ↦ hlasting ⟨h, hbuilds⟩, ?_⟩
    by_cases hquiet : hooks (Hierarchy.build resolver.loader resolver.evaluate context t).loaded = []
    · cases hbuild : (Hierarchy.build resolver.loader resolver.evaluate context t).outcome with
      | error e' =>
        rw [rebuild_of_error hbuild]
        exact hmaintained
      | ok h =>
        cases hdynamic : h.isDynamic with
        | true =>
          rw [rebuild_of_dynamic hbuild hdynamic] at hfailed ⊢
          rw [cache_finish_of_failed hfailed]
          exact hmaintained
        | false => exact absurd ⟨h, hbuild, hdynamic, hquiet⟩ hlasting
    · rw [cache_rebuild_of_disturbed hquiet]
      exact hmaintained

/-- Where a resolution fails, it has kept the hierarchy that it has built to last for a name without
one, or nothing. -/
theorem resolveWith_failed_cases {t : SharedTemplate} (hkeyed : cache.Keyed)
    (hfailed : (resolver.resolveWith hooks cache now t context).outcome = .error (.error e)) :
    ((∀ h, cache.Lacks t.name (now + 1) → ¬resolver.BuildsLasting hooks t.template context h) ∧
        (resolver.resolveWith hooks cache now t context).cache.KeptFrom cache) ∨
      ∃ (h : Hierarchy) (before : Cache), cache.Lacks t.name (now + 1) ∧
        resolver.BuildsLasting hooks t.template context h ∧ before.KeptFrom cache ∧
        (before.storeHierarchy (now + 3) t.name h .agree).1 ≠ .clockOverflow ∧
        (resolver.resolveWith hooks cache now t context).cache =
          (before.storeHierarchy (now + 3) t.name h .agree).2 := by
  rcases resolver.passage cache now t context with
    ⟨-, hresult⟩ | ⟨-, tree, -, hresult⟩ | ⟨-, h, hfound, hresult⟩ |
    ⟨before, -, tree, -, hresult⟩ | ⟨before, hunserved, hmissed, hresult⟩
  · rw [hresult] at hfailed
    cases hfailed
  · rw [hresult] at hfailed
    cases hfailed
  · -- the hierarchy was found, so that the cache is not in want of one
    have hlacks := Cache.getHierarchy_second_eq_none_iff hkeyed now t.name staticDigest staticDigest
    simp only [hfound, reduceCtorEq, false_iff] at hlacks
    have hfirst := cache.keptFrom_getResolved now t.name staticDigest staticDigest
    have hsecond := Cache.keptFrom_getHierarchy
      (cache.getResolved now t.name staticDigest staticDigest).2 (now + 1) t.name
    rw [hresult] at hfailed ⊢
    rw [cache_finish_of_failed hfailed]
    exact .inl ⟨fun _ hwanted _ ↦ hlacks hwanted, hsecond.trans hfirst⟩
  · rw [hresult] at hfailed
    cases hfailed
  · have hafter := (hunserved.agedFrom_missed hkeyed hmissed).keptFrom
    have hgeneration := hunserved.generation_missed t.name context.digest context.fullDigest
    rw [hresult, ← hgeneration] at hfailed ⊢
    rcases rebuild_failed_cases hfailed with ⟨hnone, hkept⟩ | ⟨h, hbuilds, hstored, hcache⟩
    · exact .inl ⟨fun h _ ↦ hnone h, hkept.trans hafter⟩
    · exact .inr ⟨h, _, hunserved.lacks hkeyed hbuilds.static_leaf, hbuilds, hafter, hstored,
        hcache⟩

/-- A failed resolution adds no tree, and no hierarchy but one that it has built to last. It adds
nothing exactly when there is no such hierarchy, or the cache is not in want of one, or already had
the same. -/
theorem addsNothingTo_iff_of_failed {t : SharedTemplate} (hkeyed : cache.Keyed)
    (hfailed : (resolver.resolveWith hooks cache now t context).outcome = .error (.error e)) :
    (resolver.resolveWith hooks cache now t context).cache.Every
        (fun key h ↦ cache.HasHierarchy key h ∨
          key = t.name ∧ resolver.BuildsLasting hooks t.template context h)
        cache.HasTree ∧
      ((resolver.resolveWith hooks cache now t context).cache.AddsNothingTo cache ↔
        ∀ h, cache.Lacks t.name (now + 1) → resolver.BuildsLasting hooks t.template context h →
          cache.HasHierarchy t.name h) := by
  rcases resolveWith_failed_cases hkeyed hfailed with
    ⟨hnone, hkept⟩ | ⟨h, before, hlacks, hbuilds, hbefore, hstored, hcache⟩
  · have hadds := hkept.addsNothingTo
    refine ⟨hadds.imp (fun _ _ hhad ↦ .inl hhad) fun _ _ hhad ↦ hhad, ?_⟩
    exact ⟨fun _ h hlacks hbuilds ↦ absurd hbuilds (hnone h hlacks), fun _ ↦ hadds⟩
  · have hadds := hbefore.addsNothingTo
    have hsame {h' : Hierarchy} (hbuilds' : resolver.BuildsLasting hooks t.template context h') :
        h' = h := Except.ok.inj (hbuilds'.built.symm.trans hbuilds.built)
    rw [hcache]
    constructor
    · refine Cache.Every.storeHierarchy (hadds.imp ?_ ?_) _ _ (.inr ⟨rfl, hbuilds⟩)
      · exact fun _ _ hhad ↦ .inl hhad
      · exact fun _ _ hhad ↦ hhad
    constructor
    · intro hnothing h' _ hbuilds'
      obtain ⟨entry, hmem, hkey, hvalue⟩ := Table.mem_of_agreed hstored
      have hhad := hnothing.hierarchies entry hmem
      rw [hkey, hvalue] at hhad
      rw [hsame hbuilds']
      exact hhad
    · intro hhad
      exact hadds.storeHierarchy _ _ (hhad h hlacks hbuilds)

end Resolver

/-! ### A page with a stray call -/

namespace StrayPage

/-- Calls `super()` outside of its blocks. -/
def page : Template := ⟨"page", [.extending "base", .superCall]⟩

def hierarchy : Hierarchy := ⟨page, [PlainPage.base]⟩

def resolver : Resolver :=
  ⟨{ Loader.empty with stored := [⟨PlainPage.base, 1⟩, ⟨page, 2⟩] }, .standard, 5⟩

/-- The first resolution of the page over a new cache. -/
def resolution : Resolution := resolver.resolveWith .none (.new {} 0) 3 ⟨page, 2⟩ ∅

/-- The page cannot be resolved, and its hierarchy is kept. -/
theorem adds_hierarchy :
    resolution.outcome = .error (.error (.superOutsideBlock (some "page") none)) ∧
      ¬resolution.cache.AddsNothingTo (.new {} 0) := by
  have hfailed : resolution.outcome =
      .error (.error (.superOutsideBlock (some "page") none)) := by decide +kernel
  have hbuilds : resolver.BuildsLasting .none page ∅ hierarchy :=
    ⟨by decide +kernel, by decide, rfl⟩
  have hempty : Cache.Lacks (.new {} 0) "page" 4 := nofun
  refine ⟨hfailed, fun hnothing ↦ ?_⟩
  have hiff := (Resolver.addsNothingTo_iff_of_failed (Cache.keyed_new {} 0) hfailed).2
  obtain ⟨entry, hmem, -⟩ := hiff.mp hnothing hierarchy hempty hbuilds
  cases hmem

/-- Not every resolution that fails leaves the tables without a new entry. -/
theorem not_forall_failed_addsNothing :
    ¬∀ (resolver : Resolver) (hooks : Hooks) (cache : Cache) (now : Nat) (t : SharedTemplate)
        (context : Context) (e : ResolveError),
      (resolver.resolveWith hooks cache now t context).outcome = .error (.error e) →
        (resolver.resolveWith hooks cache now t context).cache.AddsNothingTo cache := by
  intro hnothing
  have hadds := hnothing resolver .none (.new {} 0) 3 ⟨page, 2⟩ ∅
    (.superOutsideBlock (some "page") none) (by decide +kernel)
  have hkept : ⟨"page", hierarchy, 900000000006, 6, 1⟩ ∈ resolution.cache.hierarchies.entries := by
    decide +kernel
  obtain ⟨entry, hmem, -⟩ := hadds.hierarchies _ hkept
  cases hmem

end StrayPage

end TemplateInheritance
