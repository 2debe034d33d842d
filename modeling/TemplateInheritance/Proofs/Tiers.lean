import TemplateInheritance.Proofs.Building
import TemplateInheritance.Proofs.Passages
import TemplateInheritance.Sharing

/-!
# What stands in a shared cache

A resolution answers from one of four places, and stores at most a hierarchy and a tree. Whatever
holds of all entries and of what can be stored holds after every run. So the tables of a cache keep
to their kinds of keys and values, and an invalidation drops what was made from a template, no more
and no less, until a resolution stores such a thing again.
-/

namespace TemplateInheritance

namespace Cache

/-- The tables of the one cache hold nothing that those of the other do not. -/
structure KeptFrom (after before : Cache) : Prop where
  hierarchies : after.hierarchies.KeptFrom before.hierarchies
  resolved : after.resolved.KeptFrom before.resolved

theorem KeptFrom.refl (cache : Cache) : cache.KeptFrom cache := ⟨.refl _, .refl _⟩

theorem KeptFrom.trans {first second third : Cache} (hlater : third.KeptFrom second)
    (hearlier : second.KeptFrom first) : third.KeptFrom first where
  hierarchies := hlater.hierarchies.trans hearlier.hierarchies
  resolved := hlater.resolved.trans hearlier.resolved

theorem RestOf.keptFrom {after before : Cache} {goneHierarchy : Entry Hierarchy → Prop}
    {goneTree : Entry ResolvedEntry → Prop} (hrest : after.RestOf before goneHierarchy goneTree) :
    after.KeptFrom before :=
  ⟨hrest.hierarchies.keptFrom, hrest.resolved.keptFrom⟩

theorem keptFrom_sweepExpired (cache : Cache) (now : Nat) :
    (cache.sweepExpired now).2.KeptFrom cache :=
  (cache.agedFrom_sweepExpired now).keptFrom

theorem keptFrom_sweepIfDue (cache : Cache) (now : Nat) :
    (cache.sweepIfDue now).KeptFrom cache :=
  (cache.agedFrom_sweepIfDue now).keptFrom

theorem keptFrom_getHierarchy (cache : Cache) (now : Nat) (name : String) :
    (cache.getHierarchy now name).2.KeptFrom cache := by
  have hfind (swept : Cache) : (swept.findHierarchy now name).2.KeptFrom swept :=
    ⟨swept.hierarchies.keptFrom_lookup now name fun _ ↦ true, .refl _⟩
  rw [getHierarchy]
  exact (hfind _).trans (cache.keptFrom_sweepIfDue now)

theorem keptFrom_getResolved (cache : Cache) (now : Nat) (name digest fullDigest : String) :
    (cache.getResolved now name digest fullDigest).2.KeptFrom cache := by
  have hfind (swept : Cache) : (swept.findResolved now name digest fullDigest).2.KeptFrom swept :=
    ⟨.refl _, swept.resolved.keptFrom_lookup now (resolvedKey name digest)
      (·.fullDigest == fullDigest)⟩
  rw [getResolved]
  exact (hfind _).trans (cache.keptFrom_sweepIfDue now)

theorem keptFrom_maintain (cache : Cache) (upkeep : Upkeep) :
    (cache.maintain upkeep).KeptFrom cache :=
  (cache.restOf_maintain upkeep).keptFrom

theorem keptFrom_maintainAll (cache : Cache) (upkeeps : List Upkeep) :
    (cache.maintainAll upkeeps).KeptFrom cache :=
  (cache.restOf_maintainAll upkeeps).keptFrom

private theorem mem_of_findHierarchy {cache : Cache} {now : Nat} {name : String} {h : Hierarchy}
    (hfound : (cache.findHierarchy now name).1 = some h) :
    ∃ entry ∈ cache.hierarchies.entries, entry.key = name ∧ entry.value = h := by
  have hlookup : (cache.hierarchies.lookup now name fun _ ↦ true).1 = some h := hfound
  obtain ⟨entry, hmem, hkey, hvalue, -⟩ := Table.mem_of_lookup hlookup
  exact ⟨entry, hmem, hkey, hvalue⟩

/-- A hierarchy that is answered is kept under the name asked for. -/
theorem mem_of_getHierarchy {cache : Cache} {now : Nat} {name : String} {h : Hierarchy}
    (hfound : (cache.getHierarchy now name).1 = some h) :
    ∃ entry ∈ cache.hierarchies.entries, entry.key = name ∧ entry.value = h := by
  rw [getHierarchy] at hfound
  obtain ⟨entry, hmem, hkey, hvalue⟩ := mem_of_findHierarchy hfound
  obtain ⟨source, hsource, hkey', hvalue', -⟩ :=
    (cache.keptFrom_sweepIfDue now).hierarchies.source entry hmem
  exact ⟨source, hsource, hkey'.trans hkey, hvalue'.trans hvalue⟩

private theorem mem_of_findResolved {cache : Cache} {now : Nat} {name digest fullDigest : String}
    {tree : SharedTemplate}
    (hfound : (cache.findResolved now name digest fullDigest).1 = some tree) :
    ∃ entry ∈ cache.resolved.entries, entry.key = resolvedKey name digest ∧
      entry.value.fullDigest = fullDigest ∧ entry.value.tree = tree := by
  obtain ⟨value, hvalue, htree⟩ := Option.map_eq_some_iff.mp hfound
  have hlookup : (cache.resolved.lookup now (resolvedKey name digest)
      (·.fullDigest == fullDigest)).1 = some value := hvalue
  obtain ⟨entry, hmem, hkey, rfl, haccepts⟩ := Table.mem_of_lookup hlookup
  exact ⟨entry, hmem, hkey, eq_of_beq haccepts, htree⟩

/-- A tree that is answered is kept under the name and digest asked for, with the full digest. -/
theorem mem_of_getResolved {cache : Cache} {now : Nat} {name digest fullDigest : String}
    {tree : SharedTemplate}
    (hfound : (cache.getResolved now name digest fullDigest).1 = some tree) :
    ∃ entry ∈ cache.resolved.entries, entry.key = resolvedKey name digest ∧
      entry.value.fullDigest = fullDigest ∧ entry.value.tree = tree := by
  rw [getResolved] at hfound
  obtain ⟨entry, hmem, hkey, hfull, htree⟩ := mem_of_findResolved hfound
  obtain ⟨source, hsource, hkey', hvalue', -⟩ :=
    (cache.keptFrom_sweepIfDue now).resolved.source entry hmem
  exact ⟨source, hsource, hkey'.trans hkey, hvalue' ▸ hfull, hvalue' ▸ htree⟩

/-! ### What holds of every entry -/

/-- What holds of every key with its value, for the two tables. -/
structure Every (P : String → Hierarchy → Prop) (Q : String → ResolvedEntry → Prop)
    (cache : Cache) : Prop where
  hierarchies : ∀ entry ∈ cache.hierarchies.entries, P entry.key entry.value
  resolved : ∀ entry ∈ cache.resolved.entries, Q entry.key entry.value

variable {P : String → Hierarchy → Prop} {Q : String → ResolvedEntry → Prop}

theorem every_new (settings : CacheSettings) (start : Nat) : (Cache.new settings start).Every P Q :=
  ⟨nofun, nofun⟩

theorem Every.of_keptFrom {after before : Cache} (hbefore : before.Every P Q)
    (hkept : after.KeptFrom before) : after.Every P Q := by
  constructor
  · intro entry hmem
    obtain ⟨source, hsource, hkey, hvalue, -⟩ := hkept.hierarchies.source entry hmem
    rw [← hkey, ← hvalue]
    exact hbefore.hierarchies source hsource
  · intro entry hmem
    obtain ⟨source, hsource, hkey, hvalue, -⟩ := hkept.resolved.source entry hmem
    rw [← hkey, ← hvalue]
    exact hbefore.resolved source hsource

theorem Every.imp {P' : String → Hierarchy → Prop} {Q' : String → ResolvedEntry → Prop}
    {cache : Cache} (hcache : cache.Every P Q) (hP : ∀ key h, P key h → P' key h)
    (hQ : ∀ key entry, Q key entry → Q' key entry) : cache.Every P' Q' :=
  ⟨fun entry hmem ↦ hP _ _ (hcache.hierarchies entry hmem),
    fun entry hmem ↦ hQ _ _ (hcache.resolved entry hmem)⟩

theorem Every.and {P' : String → Hierarchy → Prop} {Q' : String → ResolvedEntry → Prop}
    {cache : Cache} (hcache : cache.Every P Q) (hcache' : cache.Every P' Q') :
    cache.Every (fun key h ↦ P key h ∧ P' key h) fun key entry ↦ Q key entry ∧ Q' key entry :=
  ⟨fun entry hmem ↦ ⟨hcache.hierarchies entry hmem, hcache'.hierarchies entry hmem⟩,
    fun entry hmem ↦ ⟨hcache.resolved entry hmem, hcache'.resolved entry hmem⟩⟩

/-- Nothing that was made from a template outlasts its invalidation. -/
theorem every_invalidate (cache : Cache) (name : String) :
    (cache.invalidate name).Every (fun _ h ↦ name ∉ h.names) fun _ entry ↦ name ∉ entry.chain := by
  constructor
  · intro entry hmem
    have hkept := (List.mem_filter.mp hmem).2
    simp only [Hierarchy.contains, Bool.not_eq_true', Bool.or_eq_false_iff] at hkept
    simpa using hkept.2
  · intro entry hmem
    simpa [ResolvedEntry.dependsOn] using (List.mem_filter.mp hmem).2

theorem every_clear (cache : Cache) : cache.clear.Every P Q := ⟨nofun, nofun⟩

theorem Every.storeHierarchy {cache : Cache} (hcache : cache.Every P Q) (now : Nat) {name : String}
    {h : Hierarchy} (admission : Admission) (hP : P name h) :
    (cache.storeHierarchy now name h admission).2.Every P Q := by
  refine ⟨fun entry hmem ↦ ?_, hcache.resolved⟩
  rcases Table.mem_store hmem with hold | ⟨-, hkey, hvalue⟩
  · exact hcache.hierarchies entry hold
  · rw [hkey, hvalue]
    exact hP

theorem Every.storeResolved {cache : Cache} (hcache : cache.Every P Q) (now : Nat)
    {name digest : String} {value : ResolvedEntry} (admission : Admission)
    (hQ : Q (resolvedKey name digest) value) :
    (cache.storeResolved now name digest value admission).2.Every P Q := by
  refine ⟨hcache.hierarchies, fun entry hmem ↦ ?_⟩
  rcases Table.mem_store hmem with hold | ⟨-, hkey, hvalue⟩
  · exact hcache.resolved entry hold
  · rw [hkey, hvalue]
    exact hQ

end Cache

/-! ### The ways of a resolution -/

namespace Resolver

/-- The ways in which a resolution comes about: no directives, a tree kept for all contexts or for
the context at hand, a kept hierarchy, or a hierarchy built anew. -/
inductive Route (resolver : Resolver) (hooks : Hooks) (cache : Cache) (now : Nat)
    (t : SharedTemplate) (context : Context) (resolution : Resolution) : Prop where
  | unchanged (hplain : t.template.hasDirectives = false)
      (hresult : resolution = ⟨.ok t, cache, []⟩)
  | servedFixed (hstatic : t.template.hasDynamicExtends = false) (entry : Entry ResolvedEntry)
      (hmem : entry ∈ cache.resolved.entries) (hkey : entry.key = resolvedKey t.name staticDigest)
      (hfull : entry.value.fullDigest = staticDigest) (after : Cache)
      (hafter : after.KeptFrom cache) (hresult : resolution = ⟨.ok entry.value.tree, after, []⟩)
  | servedInContext (entry : Entry ResolvedEntry) (hmem : entry ∈ cache.resolved.entries)
      (hkey : entry.key = resolvedKey t.name context.digest)
      (hfull : entry.value.fullDigest = context.fullDigest) (after : Cache)
      (hafter : after.KeptFrom cache) (hresult : resolution = ⟨.ok entry.value.tree, after, []⟩)
  | kept (hstatic : t.template.hasDynamicExtends = false) (entry : Entry Hierarchy)
      (hmem : entry ∈ cache.hierarchies.entries) (hkey : entry.key = t.name) (before : Cache)
      (hbefore : before.KeptFrom cache)
      (hresult : resolution =
        resolver.finish before (now + 4) cache.generation t.name context entry.value [])
  | rebuilt (before : Cache) (hbefore : before.KeptFrom cache)
      (hresult : resolution =
        resolver.rebuild hooks before (now + 3) cache.generation t.template context)

variable (resolver : Resolver) (hooks : Hooks) (cache : Cache) (now : Nat) (t : SharedTemplate)
  (context : Context)

variable {cache now t} in
private theorem keptFrom_of_unserved {before : Cache} (hunserved : Unserved cache now t before) :
    before.KeptFrom cache := by
  cases hunserved with
  | dynamic => exact .refl cache
  | static =>
    have hfirst := cache.keptFrom_getResolved now t.name staticDigest staticDigest
    exact (Cache.keptFrom_getHierarchy _ (now + 1) t.name).trans hfirst

/-- Every resolution comes about in one of these ways. -/
theorem route_resolveWith :
    Route resolver hooks cache now t context (resolver.resolveWith hooks cache now t context) := by
  have hfirst := cache.keptFrom_getResolved now t.name staticDigest staticDigest
  rcases resolver.passage cache now t context with
    ⟨hplain, hresult⟩ | ⟨hstatic, tree, hfound, hresult⟩ | ⟨hstatic, h, hfound, hresult⟩ |
    ⟨before, hunserved, tree, hfound, hresult⟩ | ⟨before, hunserved, hmissed, hresult⟩
  · exact .unchanged hplain (hresult hooks)
  · obtain ⟨entry, hmem, hkey, hfull, rfl⟩ := Cache.mem_of_getResolved hfound
    exact .servedFixed hstatic entry hmem hkey hfull _ hfirst (hresult hooks)
  · have hsecond := Cache.keptFrom_getHierarchy
      (cache.getResolved now t.name staticDigest staticDigest).2 (now + 1) t.name
    obtain ⟨entry, hmem, hkey, rfl⟩ := Cache.mem_of_getHierarchy hfound
    obtain ⟨source, hsource, hkey', hvalue, -⟩ := hfirst.hierarchies.source entry hmem
    refine .kept hstatic source hsource (hkey'.trans hkey) _ (hsecond.trans hfirst) ?_
    rw [hvalue]
    exact hresult hooks
  · have hbefore := keptFrom_of_unserved hunserved
    have hafter := before.keptFrom_getResolved (now + 2) t.name context.digest context.fullDigest
    obtain ⟨entry, hmem, hkey, hfull, rfl⟩ := Cache.mem_of_getResolved hfound
    obtain ⟨source, hsource, hkey', hvalue, -⟩ := hbefore.resolved.source entry hmem
    rw [← hvalue] at hfull hresult
    exact .servedInContext source hsource (hkey'.trans hkey) hfull _ (hafter.trans hbefore)
      (hresult hooks)
  · have hafter := before.keptFrom_getResolved (now + 2) t.name context.digest context.fullDigest
    exact .rebuilt _ (hafter.trans (keptFrom_of_unserved hunserved)) (hresult hooks)

/-! ### What a resolution stores -/

section Storing

variable {resolver : Resolver} {hooks : Hooks} {cache : Cache} {now : Nat} {context : Context}

/-- What holds of a cache holds after a resolution if it outlasts the loss of entries and the two
kinds of stores: of the hierarchy that is built, unless that is dynamic, and of the tree of a
hierarchy that is built or found. -/
theorem resolveWith_preserves (holds : Cache → Prop) {t : SharedTemplate} (hcache : holds cache)
    (hkept : ∀ after before, after.KeptFrom before → holds before → holds after)
    (hhierarchy : ∀ before now admission h, holds before →
      (Hierarchy.build resolver.loader resolver.evaluate context t.template).outcome = .ok h →
      h.isDynamic = false → holds (before.storeHierarchy now t.name h admission).2)
    (htree : ∀ before now admission h tree, holds before →
      (t.template.hasDynamicExtends = false ∧
          (∃ entry ∈ cache.hierarchies.entries, entry.key = t.name ∧ entry.value = h) ∨
        (Hierarchy.build resolver.loader resolver.evaluate context t.template).outcome = .ok h) →
      h.resolve resolver.maxSuperDepth = .ok tree →
      holds (before.storeResolved now t.name (h.keptDigest context)
        ⟨⟨tree, now⟩, h.keptFullDigest context, h.names⟩ admission).2) :
    holds (resolver.resolveWith hooks cache now t context).cache := by
  rcases resolver.route_resolveWith hooks cache now t context with
    ⟨-, hresult⟩ | ⟨-, _, -, -, -, after, hafter, hresult⟩ | ⟨_, -, -, -, after, hafter, hresult⟩ |
    ⟨hstatic, entry, hmem, hkey, before, hbefore, hresult⟩ | ⟨before, hbefore, hresult⟩
  · rw [hresult]
    exact hcache
  · rw [hresult]
    exact hkept _ _ hafter hcache
  · rw [hresult]
    exact hkept _ _ hafter hcache
  · have hsource : ∃ source ∈ cache.hierarchies.entries,
        source.key = t.name ∧ source.value = entry.value := ⟨entry, hmem, hkey, rfl⟩
    have hholds := hkept _ _ hbefore hcache
    rw [hresult]
    exact finish_preserves holds hholds fun tree admission ↦
      htree _ _ admission _ tree hholds (.inl ⟨hstatic, hsource⟩)
  · have hmaintained := hkept _ _ (before.keptFrom_maintainAll (hooks
      (Hierarchy.build resolver.loader resolver.evaluate context t.template).loaded))
      (hkept _ _ hbefore hcache)
    rw [hresult]
    exact rebuild_preserves holds hmaintained hhierarchy
      fun stored now admission h tree hstored hbuild ↦
        htree stored now admission h tree hstored (.inr hbuild)

/-- What holds of all entries holds after a resolution if it holds of what is stored. -/
theorem every_resolveWith {P : String → Hierarchy → Prop} {Q : String → ResolvedEntry → Prop}
    {t : SharedTemplate} (hcache : cache.Every P Q)
    (hP : ∀ h, (Hierarchy.build resolver.loader resolver.evaluate context t.template).outcome =
        .ok h → h.isDynamic = false → P t.name h)
    (hQ : ∀ h tree stamp,
      (t.template.hasDynamicExtends = false ∧ P t.name h ∨
        (Hierarchy.build resolver.loader resolver.evaluate context t.template).outcome = .ok h) →
      h.resolve resolver.maxSuperDepth = .ok tree →
      Q (resolvedKey t.name (h.keptDigest context))
        ⟨⟨tree, stamp⟩, h.keptFullDigest context, h.names⟩) :
    (resolver.resolveWith hooks cache now t context).cache.Every P Q := by
  apply resolveWith_preserves (Cache.Every P Q) hcache
  · intro after before hkept hbefore
    exact hbefore.of_keptFrom hkept
  · intro before stamp admission h hbefore hbuild hstatic
    exact hbefore.storeHierarchy stamp admission (hP h hbuild hstatic)
  · intro before stamp admission h tree hbefore hsource htree
    refine hbefore.storeResolved stamp admission (hQ h tree stamp ?_ htree)
    rcases hsource with ⟨hstatic, entry, hmem, hkey, rfl⟩ | hbuild
    · exact .inl ⟨hstatic, hkey ▸ hcache.hierarchies entry hmem⟩
    · exact .inr hbuild

end Storing

/-- A resolution leaves the lifetimes of both tables as they are. -/
theorem lifetimes_resolveWith (resolver : Resolver) (hooks : Hooks) (cache : Cache) (now : Nat)
    (t : SharedTemplate) (context : Context) :
    (resolver.resolveWith hooks cache now t context).cache.hierarchies.lifetime =
        cache.hierarchies.lifetime ∧
      (resolver.resolveWith hooks cache now t context).cache.resolved.lifetime =
        cache.resolved.lifetime := by
  apply resolveWith_preserves (fun after ↦
    after.hierarchies.lifetime = cache.hierarchies.lifetime ∧
      after.resolved.lifetime = cache.resolved.lifetime) ⟨rfl, rfl⟩
  · intro after before hkept hbefore
    exact ⟨hkept.hierarchies.lifetime.trans hbefore.1, hkept.resolved.lifetime.trans hbefore.2⟩
  · intro before stamp admission h hbefore _ _
    exact ⟨(Table.lifetime_store ..).trans hbefore.1, hbefore.2⟩
  · intro before stamp admission h tree hbefore _ _
    exact ⟨hbefore.1, (Table.lifetime_store ..).trans hbefore.2⟩

end Resolver

/-! ### Runs of accesses -/

namespace Cache

/-- A kept hierarchy is one that no context can change, under the name of its requested
template. -/
def TieredHierarchy (key : String) (h : Hierarchy) : Prop :=
  h.isDynamic = false ∧ key = h.leaf.name

/-- A kept tree is the result of a hierarchy with the listed names, the requested template's first.
It stands under that name and the fixed digest, or the digest of some context if the hierarchy is
dynamic. -/
def TieredTree (key : String) (entry : ResolvedEntry) : Prop :=
  ∃ h : Hierarchy, entry.chain = h.names ∧
    (∃ limit, h.resolve limit = .ok entry.tree.template) ∧
    (h.isDynamic = false ∧ key = resolvedKey h.leaf.name staticDigest ∧
        entry.fullDigest = staticDigest ∨
      h.isDynamic = true ∧ ∃ context : Context,
        key = resolvedKey h.leaf.name context.digest ∧ entry.fullDigest = context.fullDigest)

/-- Both tables keep to their kinds of keys and values. -/
abbrev Tiered (cache : Cache) : Prop := cache.Every TieredHierarchy TieredTree

/-- An access keeps the kinds of keys and values. -/
theorem Tiered.access {cache : Cache} (hcache : cache.Tiered) (now : Nat) (access : Access) :
    (cache.access now access).Tiered := by
  cases access with
  | maintain upkeep => exact hcache.of_keptFrom (cache.keptFrom_maintain upkeep)
  | sweep => exact hcache.of_keptFrom (cache.keptFrom_sweepExpired now)
  | resolve resolver hooks t context =>
    have hleaf {h : Hierarchy} (hbuild : (Hierarchy.build resolver.loader resolver.evaluate context
        t.template).outcome = .ok h) : t.template.name = h.leaf.name := by
      rw [((Hierarchy.build_eq_ok_iff _ _).mp hbuild).1]
    refine Resolver.every_resolveWith hcache (fun h hbuild hstatic ↦ ⟨hstatic, hleaf hbuild⟩)
      fun h tree stamp hsource htree ↦ ⟨h, rfl, ⟨_, htree⟩, ?_⟩
    have hname : t.name = h.leaf.name := by
      rcases hsource with ⟨-, -, hkey⟩ | hbuild
      · exact hkey
      · exact hleaf hbuild
    rw [hname, Hierarchy.keptDigest, Hierarchy.keptFullDigest]
    cases hdynamic : h.isDynamic with
    | false => exact .inl ⟨rfl, rfl, rfl⟩
    | true => exact .inr ⟨rfl, context, rfl, rfl⟩

/-- A run keeps the kinds of keys and values. -/
theorem Tiered.run {cache : Cache} (hcache : cache.Tiered) (accesses : List (Nat × Access)) :
    (cache.run accesses).Tiered :=
  run_preserves (fun _ now access hbefore ↦ hbefore.access now access) hcache accesses

/-- The cache without what was made from a template of that name, in the next generation. Other
entries, the counts of hits and misses, the limits and the sweeping times stay. -/
def forgetting (cache : Cache) (name : String) : Cache :=
  { cache with
    generation := cache.generation + 1
    hierarchies := { cache.hierarchies with
      entries := cache.hierarchies.entries.filter fun entry ↦ !entry.value.names.contains name }
    resolved := { cache.resolved with
      entries := cache.resolved.entries.filter fun entry ↦ !entry.value.chain.contains name } }

/-- In a tiered cache, the key of a hierarchy says nothing that its names do not. -/
theorem Tiered.invalidate_eq {cache : Cache} (hcache : cache.Tiered) (name : String) :
    cache.invalidate name = cache.forgetting name := by
  have hfilter : cache.hierarchies.entries.filter
      (fun entry ↦ !(entry.key == name || entry.value.contains name)) =
        cache.hierarchies.entries.filter fun entry ↦ !entry.value.names.contains name := by
    refine List.filter_congr fun entry hmem ↦ ?_
    obtain ⟨-, hkey⟩ := hcache.hierarchies entry hmem
    rw [Hierarchy.contains, hkey]
    by_cases hname : entry.value.leaf.name = name
    · simp [Hierarchy.names, Hierarchy.templates, hname]
    · simp [hname]
  simp only [invalidate, Table.removeWhere, hfilter]
  rfl

/-- Whether something that was made from a template of that name is kept. -/
def holds (cache : Cache) (name : String) : Bool :=
  cache.hierarchies.entries.any (·.value.names.contains name) ||
    cache.resolved.entries.any (·.value.chain.contains name)

/-- Some lookup, at some reading, answers with a value that was made from a template of that
name. -/
def Serves (cache : Cache) (name : String) : Prop :=
  ∃ now,
    (∃ key h, (cache.getHierarchy now key).1 = some h ∧ name ∈ h.names) ∨
    ∃ leaf digest fullDigest entry,
      ((cache.sweepIfDue now).resolved.lookup now (resolvedKey leaf digest)
        (·.fullDigest == fullDigest)).1 = some entry ∧ name ∈ entry.chain

/-- Only what is kept can be served. -/
theorem holds_of_serves {cache : Cache} {name : String} (hserves : cache.Serves name) :
    cache.holds name = true := by
  obtain ⟨now, ⟨key, h, hfound, hname⟩ | ⟨leaf, digest, fullDigest, value, hfound, hname⟩⟩ :=
    hserves
  · obtain ⟨entry, hmem, -, rfl⟩ := mem_of_getHierarchy hfound
    simp only [holds, Bool.or_eq_true, List.any_eq_true]
    exact .inl ⟨entry, hmem, by simpa using hname⟩
  · obtain ⟨entry, hmem, -, rfl, -⟩ := Table.mem_of_lookup hfound
    obtain ⟨source, hsource, -, hvalue, -⟩ :=
      (cache.keptFrom_sweepIfDue now).resolved.source entry hmem
    simp only [holds, Bool.or_eq_true, List.any_eq_true]
    exact .inr ⟨source, hsource, by simpa [hvalue] using hname⟩

private theorem holds_eq_false_iff (cache : Cache) (name : String) :
    cache.holds name = false ↔
      cache.Every (fun _ h ↦ name ∉ h.names) fun _ entry ↦ name ∉ entry.chain := by
  simp only [holds, Bool.or_eq_false_iff, List.any_eq_false, List.contains_eq_mem,
    decide_eq_true_eq]
  exact ⟨fun h ↦ ⟨h.1, h.2⟩, fun h ↦ ⟨h.1, h.2⟩⟩

/-- Nothing of a template is kept after its invalidation. -/
theorem holds_invalidate (cache : Cache) (name : String) :
    (cache.invalidate name).holds name = false :=
  (holds_eq_false_iff _ _).mpr (cache.every_invalidate name)

/-- In every run from here on, what was made from a template of that name is served only once a
resolution has stored such a value, where there was none. -/
def ServesOnlyRestored (cache : Cache) (name : String) : Prop :=
  ∀ accesses, (cache.run accesses).Serves name →
    ∃ front now resolver hooks t context back,
      accesses = front ++ (now, .resolve resolver hooks t context) :: back ∧
        (cache.run front).holds name = false ∧
        (cache.run (front ++ [(now, .resolve resolver hooks t context)])).holds name = true

/-- Only a resolution makes a cache keep something made from a template. -/
theorem servesOnlyRestored_of_holds {cache : Cache} {name : String}
    (hnone : cache.holds name = false) : cache.ServesOnlyRestored name := by
  intro accesses hserves
  have hafter := holds_of_serves hserves
  clear hserves
  induction accesses generalizing cache with
  | nil => cases hnone.symm.trans hafter
  | cons first rest ih =>
    obtain ⟨now, access⟩ := first
    cases hstep : (cache.access now access).holds name with
    | false =>
      obtain ⟨front, now', resolver, hooks, t, context, back, rfl, hfront, hback⟩ := ih hstep hafter
      exact ⟨(now, access) :: front, now', resolver, hooks, t, context, back, rfl, hfront, hback⟩
    | true =>
      have hnew : ¬(cache.access now access).KeptFrom cache := by
        intro hkept
        rw [holds_eq_false_iff] at hnone
        cases hstep.symm.trans ((holds_eq_false_iff _ _).mpr (hnone.of_keptFrom hkept))
      cases access with
      | maintain upkeep => exact absurd (cache.keptFrom_maintain upkeep) hnew
      | sweep => exact absurd (cache.keptFrom_sweepExpired now) hnew
      | resolve resolver hooks t context =>
        exact ⟨[], now, resolver, hooks, t, context, rest, rfl, hnone, hstep⟩

/-- After every run, the tables keep to their kinds of keys and values. An invalidation then drops
exactly what was made from the template, and nothing of it is served before a resolution has stored
such a value again. -/
theorem run_tiered (settings : CacheSettings) (start : Nat) (accesses : List (Nat × Access)) :
    ((new settings start).run accesses).Tiered ∧
      ∀ name,
        ((new settings start).run accesses).invalidate name =
            ((new settings start).run accesses).forgetting name ∧
          (((new settings start).run accesses).invalidate name).ServesOnlyRestored name := by
  have htiered : ((new settings start).run accesses).Tiered :=
    Tiered.run (every_new settings start) accesses
  refine ⟨htiered, fun name ↦ ⟨htiered.invalidate_eq name, ?_⟩⟩
  exact servesOnlyRestored_of_holds (holds_invalidate _ name)

end Cache

/-! ### A page over its base -/

namespace PlainPage

def base : Template := ⟨"base", [.named "title" [.text "base"]]⟩

/-- Replaces the title of the base. -/
def page : Template := ⟨"page", [.extending "base", .named "title" [.text "page"]]⟩

def hierarchy : Hierarchy := ⟨page, [base]⟩

def loader : Loader := { Loader.empty with stored := [⟨base, 1⟩, ⟨page, 2⟩] }

/-- A resolution of the page. -/
def access : Access := .resolve ⟨loader, .standard, 5⟩ .none ⟨page, 2⟩ ∅

/-- What is kept of the second resolution of the page: a tree that was made from both templates. -/
def kept : ResolvedEntry :=
  ⟨⟨⟨"page", [.named "title" [.text "page"]]⟩, 13⟩, staticDigest, ["page", "base"]⟩

/-- The cache after the page was resolved and then dropped with its base. -/
def emptied : Cache := ((Cache.new {} 0).run [(0, access)]).invalidate "base"

/-- The cache after the page was resolved again. -/
def refilled : Cache := emptied.run [(9, access)]

/-- The hierarchy and the tree of a page that was dropped are served again, and the resolution that
has stored them found neither. -/
theorem run_tiered_refilled :
    (refilled.getHierarchy 19 "page").1 = some hierarchy ∧
      (refilled.getResolved 19 "page" staticDigest staticDigest).1 = some kept.tree ∧
      refilled.Serves "base" ∧
      ∃ front now resolver hooks t context back,
        [(9, access)] = front ++ (now, Access.resolve resolver hooks t context) :: back ∧
          (emptied.run front).holds "base" = false := by
  have hhierarchy : (refilled.getHierarchy 19 "page").1 = some hierarchy := by decide +kernel
  have hlooked : ((refilled.sweepIfDue 19).resolved.lookup 19 (resolvedKey "page" staticDigest)
      (·.fullDigest == staticDigest)).1 = some kept := by decide +kernel
  have htree : (refilled.getResolved 19 "page" staticDigest staticDigest).1 = some kept.tree := by
    simp only [Cache.getResolved, Cache.findResolved, hlooked, Option.map_some]
  have hserves : refilled.Serves "base" := by
    refine ⟨19, .inr ⟨"page", staticDigest, staticDigest, kept, hlooked, ?_⟩⟩
    decide
  have honly : emptied.ServesOnlyRestored "base" :=
    ((Cache.run_tiered {} 0 [(0, access)]).2 "base").2
  obtain ⟨front, now, resolver, hooks, t, context, back, heq, hempty, -⟩ :=
    honly [(9, access)] hserves
  exact ⟨hhierarchy, htree, hserves, front, now, resolver, hooks, t, context, back, heq, hempty⟩

end PlainPage

end TemplateInheritance
