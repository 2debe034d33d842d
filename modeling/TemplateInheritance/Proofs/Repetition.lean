import TemplateInheritance.Proofs.Contexts
import TemplateInheritance.Proofs.Failures
import TemplateInheritance.Proofs.Keys

/-!
# Repeated resolutions

A resolution that answers, and is not disturbed, leaves its tree in the cache under the digest of
what the answer depends on. So the next resolution of the template finds it there: under every
context if no context can change the hierarchy, and under the same one otherwise. It counts one hit,
and misses only where it has to ask for a tree for all contexts and for a hierarchy first.
-/

namespace TemplateInheritance

/-! ### Counting lookups -/

namespace Table

variable {V : Type}

/-- The one table has counted this many hits and misses more than the other. -/
structure Counted (after before : Table V) (hits misses : Nat) : Prop where
  hits : after.hits = before.hits + hits
  misses : after.misses = before.misses + misses

theorem Counted.refl (table : Table V) : table.Counted table 0 0 := ⟨rfl, rfl⟩

theorem Counted.trans {first second third : Table V} {hits hits' misses misses' : Nat}
    (hlater : third.Counted second hits' misses') (hearlier : second.Counted first hits misses) :
    third.Counted first (hits + hits') (misses + misses') where
  hits := by rw [hlater.hits, hearlier.hits, Nat.add_assoc]
  misses := by rw [hlater.misses, hearlier.misses, Nat.add_assoc]

variable {table : Table V} {now : Nat} {key : String} {accepts : V → Bool}

/-- A lookup that finds something touches its entry. -/
theorem lookup_of_found {value : V} (hfound : (table.lookup now key accepts).1 = some value) :
    (table.lookup now key accepts).2 = table.hit now key := by
  obtain ⟨entry, hfind, hlives, haccepts, -⟩ := (table.lookup_eq_some_iff _ _ _ _).mp hfound
  simp only [lookup, hfind, hlives, haccepts, Bool.false_eq_true, if_false, if_true]

theorem counted_lookup_found {value : V}
    (hfound : (table.lookup now key accepts).1 = some value) :
    (table.lookup now key accepts).2.Counted table 1 0 := by
  rw [lookup_of_found hfound]
  exact ⟨rfl, rfl⟩

theorem counted_lookup_missed (hmissed : (table.lookup now key accepts).1 = none) :
    (table.lookup now key accepts).2.Counted table 0 1 := by
  unfold lookup at hmissed ⊢
  split
  · exact ⟨rfl, rfl⟩
  · next entry hfind =>
    simp only [hfind] at hmissed
    split
    · exact ⟨rfl, rfl⟩
    · next hlives =>
      rw [if_neg hlives] at hmissed
      split
      · next haccepts =>
        rw [if_pos haccepts] at hmissed
        cases hmissed
      · exact ⟨rfl, rfl⟩

/-- What a lookup finds is still there after it. -/
theorem mem_after_lookup {value : V} (hfound : (table.lookup now key accepts).1 = some value) :
    ∃ entry ∈ (table.lookup now key accepts).2.entries,
      entry.key = key ∧ entry.value = value ∧ accepts value = true := by
  obtain ⟨entry, hmem, hkey, hvalue, haccepts⟩ := mem_of_lookup hfound
  rw [lookup_of_found hfound]
  exact ⟨_, List.mem_map.mpr ⟨entry, hmem, if_pos hkey⟩, hkey, hvalue, haccepts⟩

/-- What was kept does not live longer for it. -/
theorem KeptFrom.forall_expired {after before : Table V} (hkept : after.KeptFrom before)
    (hbefore : ∀ entry ∈ before.entries, entry.key = key → entry.isExpired now = true) :
    ∀ entry ∈ after.entries, entry.key = key → entry.isExpired now = true := by
  intro entry hmem hkey
  obtain ⟨source, hsource, hkey', -, hexpiry⟩ := hkept.source entry hmem
  have hexpired := hbefore source hsource (hkey'.trans hkey)
  rw [Entry.isExpired, hexpiry] at hexpired
  exact hexpired

end Table

namespace Cache

/-- Since the other cache, this many lookups of trees hit and missed, and of the lookups of
hierarchies none hit and this many missed. -/
structure Counted (after before : Cache) (hits misses hierarchyMisses : Nat) : Prop where
  resolved : after.resolved.Counted before.resolved hits misses
  hierarchies : after.hierarchies.Counted before.hierarchies 0 hierarchyMisses

theorem Counted.refl (cache : Cache) : cache.Counted cache 0 0 0 := ⟨.refl _, .refl _⟩

theorem Counted.trans {first second third : Cache}
    {hits hits' misses misses' hierarchyMisses hierarchyMisses' : Nat}
    (hlater : third.Counted second hits' misses' hierarchyMisses')
    (hearlier : second.Counted first hits misses hierarchyMisses) :
    third.Counted first (hits + hits') (misses + misses') (hierarchyMisses + hierarchyMisses') where
  resolved := hlater.resolved.trans hearlier.resolved
  hierarchies := hlater.hierarchies.trans hearlier.hierarchies

/-- A sweep is not counted. -/
theorem counted_sweepIfDue (cache : Cache) (now : Nat) :
    (cache.sweepIfDue now).Counted cache 0 0 0 := by
  unfold sweepIfDue
  split
  · exact ⟨⟨rfl, rfl⟩, ⟨rfl, rfl⟩⟩
  · exact .refl cache

variable {cache : Cache} {now : Nat} {name digest fullDigest : String}

private theorem fst_getResolved (cache : Cache) (now : Nat) (name digest fullDigest : String) :
    (cache.getResolved now name digest fullDigest).1 =
      ((cache.sweepIfDue now).resolved.lookup now (resolvedKey name digest)
        (·.fullDigest == fullDigest)).1.map (·.tree) := rfl

theorem counted_getResolved_found {tree : SharedTemplate}
    (hfound : (cache.getResolved now name digest fullDigest).1 = some tree) :
    (cache.getResolved now name digest fullDigest).2.Counted cache 1 0 0 := by
  rw [fst_getResolved] at hfound
  obtain ⟨value, hvalue, -⟩ := Option.map_eq_some_iff.mp hfound
  have hlookup : (cache.getResolved now name digest fullDigest).2.Counted
      (cache.sweepIfDue now) 1 0 0 := ⟨Table.counted_lookup_found hvalue, .refl _⟩
  exact hlookup.trans (cache.counted_sweepIfDue now)

theorem counted_getResolved_missed
    (hmissed : (cache.getResolved now name digest fullDigest).1 = none) :
    (cache.getResolved now name digest fullDigest).2.Counted cache 0 1 0 := by
  rw [fst_getResolved] at hmissed
  have hlookup : (cache.getResolved now name digest fullDigest).2.Counted
      (cache.sweepIfDue now) 0 1 0 :=
    ⟨Table.counted_lookup_missed (Option.map_eq_none_iff.mp hmissed), .refl _⟩
  exact hlookup.trans (cache.counted_sweepIfDue now)

theorem counted_getHierarchy_missed (hmissed : (cache.getHierarchy now name).1 = none) :
    (cache.getHierarchy now name).2.Counted cache 0 0 1 := by
  have hmissed' : ((cache.sweepIfDue now).hierarchies.lookup now name fun _ ↦ true).1 = none :=
    hmissed
  have hlookup : (cache.getHierarchy now name).2.Counted (cache.sweepIfDue now) 0 0 1 :=
    ⟨.refl _, Table.counted_lookup_missed hmissed'⟩
  exact hlookup.trans (cache.counted_sweepIfDue now)

/-! ### What is found again -/

theorem AgedFrom.mem_resolved {after before : Cache} (haged : after.AgedFrom before now)
    {entry : Entry ResolvedEntry} (hmem : entry ∈ before.resolved.entries)
    (hlives : entry.isExpired now = false) : entry ∈ after.resolved.entries := by
  by_cases hkept : entry ∈ after.resolved.entries
  · exact hkept
  · cases hlives.symm.trans (haged.resolved.missing entry hmem hkept)

/-- A tree is found exactly when it is left to live under its name and both digests. -/
theorem getResolved_eq_some_iff (hkeyed : cache.Keyed) (tree : SharedTemplate) :
    (cache.getResolved now name digest fullDigest).1 = some tree ↔
      ∃ entry ∈ cache.resolved.entries, entry.key = resolvedKey name digest ∧
        entry.isExpired now = false ∧ entry.value.fullDigest = fullDigest ∧
        entry.value.tree = tree := by
  have haged := cache.agedFrom_sweepIfDue now
  have hlookup := (cache.sweepIfDue now).resolved.lookup_eq_some_iff now (resolvedKey name digest)
    (·.fullDigest == fullDigest)
  simp only [(hkeyed.sweepIfDue now).resolved.find?_eq_some_iff] at hlookup
  constructor
  · intro hfound
    rw [fst_getResolved] at hfound
    obtain ⟨value, hvalue, rfl⟩ := Option.map_eq_some_iff.mp hfound
    obtain ⟨entry, ⟨hmem, hkey⟩, hlives, hfull, rfl⟩ := (hlookup value).mp hvalue
    exact ⟨entry, haged.resolved.sublist.subset hmem, hkey, hlives, eq_of_beq hfull, rfl⟩
  · rintro ⟨entry, hmem, hkey, hlives, hfull, rfl⟩
    have hswept := haged.mem_resolved hmem hlives
    have hvalue := (hlookup entry.value).mpr
      ⟨entry, ⟨hswept, hkey⟩, hlives, beq_iff_eq.mpr hfull, rfl⟩
    exact congrArg (Option.map (·.tree)) hvalue

/-- A tree that was found stays, and it was there in any cache that these entries come from. -/
theorem mem_after_getResolved {origin : Cache} (horigin : cache.KeptFrom origin)
    {tree : SharedTemplate}
    (hfound : (cache.getResolved now name digest fullDigest).1 = some tree) :
    ∃ entry ∈ (cache.getResolved now name digest fullDigest).2.resolved.entries,
      entry.key = resolvedKey name digest ∧ entry.value.fullDigest = fullDigest ∧
      entry.value.tree = tree ∧ origin.HasTree (resolvedKey name digest) entry.value := by
  have hkept := (cache.keptFrom_getResolved now name digest fullDigest).trans horigin
  rw [fst_getResolved] at hfound
  obtain ⟨value, hvalue, rfl⟩ := Option.map_eq_some_iff.mp hfound
  obtain ⟨entry, hmem, hkey, rfl, hfull⟩ := Table.mem_after_lookup hvalue
  have hhad := hkept.addsNothingTo.resolved entry hmem
  rw [hkey] at hhad
  exact ⟨entry, hmem, hkey, eq_of_beq hfull, rfl, hhad⟩

/-- Neither a tree for all contexts nor a hierarchy is left to live under the name, where the one is
asked for at the reading `now` and the other at the next. -/
structure LacksFixed (cache : Cache) (name : String) (now : Nat) : Prop where
  tree : ∀ entry ∈ cache.resolved.entries, entry.key = resolvedKey name staticDigest →
    entry.isExpired now = true
  hierarchy : cache.Lacks name (now + 1)

theorem LacksFixed.mono {later : Nat} (hlacks : cache.LacksFixed name now) (hle : now ≤ later) :
    cache.LacksFixed name later where
  tree entry hmem hkey := Entry.isExpired_of_le hle (hlacks.tree entry hmem hkey)
  hierarchy entry hmem hkey :=
    Entry.isExpired_of_le (Nat.add_le_add_right hle 1) (hlacks.hierarchy entry hmem hkey)

theorem LacksFixed.of_keptFrom {after : Cache} (hlacks : cache.LacksFixed name now)
    (hkept : after.KeptFrom cache) : after.LacksFixed name now where
  tree := hkept.resolved.forall_expired hlacks.tree
  hierarchy := hkept.hierarchies.forall_expired hlacks.hierarchy

end Cache

/-! ### What a tree was made from -/

/-- The tree is the result of the hierarchy, and its names are listed with it. -/
structure ResolvedEntry.MadeFrom (value : ResolvedEntry) (h : Hierarchy) : Prop where
  chain : value.chain = h.names
  result : ∃ limit, h.resolve limit = .ok value.tree.template

namespace Cache

/-- The entry holds the tree of the hierarchy under the name: for all contexts if none can change
the hierarchy, else for the one given. -/
structure Keeps (cache : Cache) (name : String) (context : Context) (h : Hierarchy)
    (entry : Entry ResolvedEntry) : Prop where
  mem : entry ∈ cache.resolved.entries
  key : entry.key = resolvedKey name (h.keptDigest context)
  fullDigest : entry.value.fullDigest = h.keptFullDigest context
  made : entry.value.MadeFrom h

variable {name : String} {value : ResolvedEntry}

/-- What stands under the digest for all contexts was made from a hierarchy that none can change. -/
theorem TieredTree.made_static (htiered : TieredTree (resolvedKey name staticDigest) value) :
    value.fullDigest = staticDigest ∧ ∃ h, value.MadeFrom h ∧ h.isDynamic = false := by
  obtain ⟨h, hchain, hresult, ⟨hstatic, -, hfull⟩ | ⟨-, context, hkey, -⟩⟩ := htiered
  · exact ⟨hfull, h, ⟨hchain, hresult⟩, hstatic⟩
  · exact absurd hkey.symm (resolvedKey_digest_ne_static _ _ context)

/-- What stands under the digest of a context was made from a hierarchy that another may change. -/
theorem TieredTree.made_dynamic {context : Context}
    (htiered : TieredTree (resolvedKey name context.digest) value) :
    ∃ h, value.MadeFrom h ∧ h.isDynamic = true := by
  obtain ⟨h, hchain, hresult, ⟨-, hkey, -⟩ | ⟨hdynamic, -⟩⟩ := htiered
  · exact absurd hkey (resolvedKey_digest_ne_static _ _ context)
  · exact ⟨h, ⟨hchain, hresult⟩, hdynamic⟩

variable {cache : Cache} {now : Nat}

theorem Tiered.of_hasTree (htiered : cache.Tiered) {key : String} (hkept : cache.HasTree key value) :
    TieredTree key value := by
  obtain ⟨entry, hmem, rfl, rfl⟩ := hkept
  exact htiered.resolved entry hmem

/-- The lookups for all contexts find nothing exactly when there is nothing left to find. -/
theorem lacksFixed_iff (hkeyed : cache.Keyed) (htiered : cache.Tiered) :
    cache.LacksFixed name now ↔
      (cache.getResolved now name staticDigest staticDigest).1 = none ∧
        ((cache.getResolved now name staticDigest staticDigest).2.getHierarchy (now + 1) name).1 =
          none := by
  rw [getHierarchy_second_eq_none_iff hkeyed, Option.eq_none_iff_forall_ne_some]
  constructor
  · rintro ⟨htree, hhierarchy⟩
    refine ⟨fun tree hfound ↦ ?_, hhierarchy⟩
    obtain ⟨entry, hmem, hkey, hlives, -⟩ := (getResolved_eq_some_iff hkeyed tree).mp hfound
    cases hlives.symm.trans (htree entry hmem hkey)
  · rintro ⟨hnone, hhierarchy⟩
    refine ⟨fun entry hmem hkey ↦ ?_, hhierarchy⟩
    have hmade := htiered.resolved entry hmem
    rw [hkey] at hmade
    cases hlives : entry.isExpired now with
    | true => rfl
    | false =>
      have hfound := (getResolved_eq_some_iff hkeyed entry.value.tree).mpr
        ⟨entry, hmem, hkey, hlives, hmade.made_static.1, rfl⟩
      exact absurd hfound (hnone _)

end Cache

/-- The resolution repeats an answer over the cache: it gives the same tree and loads nothing. It
hits one tree, and it misses so often in each table. -/
structure Resolution.Repeats (second : Resolution) (cache : Cache) (answer : SharedTemplate)
    (misses : Nat) : Prop where
  outcome : second.outcome = .ok answer
  loaded : second.loaded = []
  counted : second.cache.Counted cache 1 misses misses

namespace Resolver

/-- How often a resolution asks in vain before it asks for the context at hand: for a template whose
parent is named literally, once in each table. -/
def earlierMisses (t : SharedTemplate) : Nat := if t.template.hasDynamicExtends then 0 else 1

/-- The hierarchy that stands behind the answer of a resolution: that of the tree which is kept for
all contexts, the one which is kept, that of the tree which is kept for the context at hand, or the
one which is built. -/
inductive Uses (resolver : Resolver) (cache : Cache) (now : Nat) (t : SharedTemplate)
    (context : Context) (answer : SharedTemplate) (h : Hierarchy) : Prop where
  | fixed (hliteral : t.template.hasDynamicExtends = false)
      (hfound : (cache.getResolved now t.name staticDigest staticDigest).1 = some answer)
      (value : ResolvedEntry) (hkept : cache.HasTree (resolvedKey t.name staticDigest) value)
      (htree : value.tree = answer) (hmade : value.MadeFrom h) (hstatic : h.isDynamic = false)
  | kept (hliteral : t.template.hasDynamicExtends = false)
      (hmissed : (cache.getResolved now t.name staticDigest staticDigest).1 = none)
      (hfound : ((cache.getResolved now t.name staticDigest staticDigest).2.getHierarchy (now + 1)
        t.name).1 = some h)
  | inContext (before : Cache) (hunserved : Unserved cache now t before)
      (hfound : (before.getResolved (now + 2) t.name context.digest context.fullDigest).1 =
        some answer)
      (value : ResolvedEntry) (hkept : cache.HasTree (resolvedKey t.name context.digest) value)
      (htree : value.tree = answer) (hmade : value.MadeFrom h) (hdynamic : h.isDynamic = true)
  | built (before : Cache) (hunserved : Unserved cache now t before)
      (hmissed : (before.getResolved (now + 2) t.name context.digest context.fullDigest).1 = none)
      (hbuilt : (Hierarchy.build resolver.loader resolver.evaluate context t.template).outcome =
        .ok h)

variable {resolver : Resolver} {hooks : Hooks} {cache before : Cache} {now : Nat}
  {t : SharedTemplate} {context : Context} {answer : SharedTemplate} {h : Hierarchy}
  {entry : Entry ResolvedEntry}

/-- A cache from which the resolution of a template can be repeated: it keeps the tree, and where
the context has a say, nothing is found before the context is asked for. -/
structure ReadyFor (cache : Cache) (now : Nat) (t : SharedTemplate) (context : Context)
    (h : Hierarchy) (entry : Entry ResolvedEntry) : Prop where
  keeps : cache.Keeps t.name context h entry
  literal : h.isDynamic = false → t.template.hasDynamicExtends = false
  lacks : h.isDynamic = true → t.template.hasDynamicExtends = false → cache.LacksFixed t.name now

/-! ### The second resolution -/

theorem resolveWith_of_fixed (hdirectives : t.template.hasDirectives = true)
    (hliteral : t.template.hasDynamicExtends = false)
    (hfound : (cache.getResolved now t.name staticDigest staticDigest).1 = some answer) :
    resolver.resolveWith hooks cache now t context =
      ⟨.ok answer, (cache.getResolved now t.name staticDigest staticDigest).2, []⟩ := by
  rcases hget : cache.getResolved now t.name staticDigest staticDigest with ⟨found, after⟩
  obtain rfl : found = some answer := by rw [← hfound, hget]
  simp [resolveWith, hdirectives, hliteral, hget]

theorem resolveWith_of_unserved (hdirectives : t.template.hasDirectives = true)
    (hunserved : Unserved cache now t before)
    (hfound : (before.getResolved (now + 2) t.name context.digest context.fullDigest).1 =
      some answer) :
    resolver.resolveWith hooks cache now t context =
      ⟨.ok answer, (before.getResolved (now + 2) t.name context.digest context.fullDigest).2,
        []⟩ := by
  have hasks : resolver.resolveWith hooks cache now t context =
      resolver.resolveInContext hooks before (now + 2) cache.generation t.template context := by
    cases hunserved with
    | dynamic hdynamic => simp [resolveWith, hdirectives, hdynamic]
    | static hliteral hfixed hkept =>
      rcases hget : cache.getResolved now t.name staticDigest staticDigest with ⟨found, first⟩
      rcases hget' : first.getHierarchy (now + 1) t.name with ⟨found', second⟩
      rw [hget] at hfixed hkept
      rw [hget'] at hkept
      obtain rfl : found = none := hfixed
      obtain rfl : found' = none := hkept
      simp [resolveWith, hdirectives, hliteral, hget, hget']
  have hname : t.template.name = t.name := rfl
  rcases hget : before.getResolved (now + 2) t.name context.digest context.fullDigest with
    ⟨found, after⟩
  obtain rfl : found = some answer := by rw [← hfound, hget]
  rw [hasks, resolveInContext, hname, hget]

theorem Unserved.counted (hunserved : Unserved cache now t before) :
    before.Counted cache 0 (earlierMisses t) (earlierMisses t) := by
  cases hunserved with
  | dynamic hdynamic =>
    rw [earlierMisses, if_pos hdynamic]
    exact .refl cache
  | static hliteral hfixed hkept =>
    rw [earlierMisses, hliteral]
    exact (Cache.counted_getHierarchy_missed hkept).trans (Cache.counted_getResolved_missed hfixed)

/-- Where no context can change the hierarchy, the tree is found at once. -/
theorem repeats_of_static (hkeyed : cache.Keyed) (hdirectives : t.template.hasDirectives = true)
    (hready : ReadyFor cache now t context h entry) (hstatic : h.isDynamic = false)
    (resolver : Resolver) (hooks : Hooks) {later : Nat} (context' : Context)
    (hlives : entry.isExpired later = false) :
    (resolver.resolveWith hooks cache later t context').Repeats cache entry.value.tree 0 := by
  have hkey := hready.keeps.key
  have hfull := hready.keeps.fullDigest
  rw [Hierarchy.keptDigest_of_static hstatic] at hkey
  rw [Hierarchy.keptFullDigest_of_static hstatic] at hfull
  have hfound := (Cache.getResolved_eq_some_iff hkeyed entry.value.tree).mpr
    ⟨entry, hready.keeps.mem, hkey, hlives, hfull, rfl⟩
  rw [resolveWith_of_fixed hdirectives (hready.literal hstatic) hfound]
  exact ⟨rfl, rfl, Cache.counted_getResolved_found hfound⟩

/-- Where the context has a say, the tree is found once it is asked for. -/
theorem repeats_of_dynamic (hkeyed : cache.Keyed) (htiered : cache.Tiered)
    (hdirectives : t.template.hasDirectives = true)
    (hready : ReadyFor cache now t context h entry) (hdynamic : h.isDynamic = true)
    (resolver : Resolver) (hooks : Hooks) {later : Nat} (hlater : now ≤ later)
    (hlives : entry.isExpired (later + 2) = false) :
    (resolver.resolveWith hooks cache later t context).Repeats cache entry.value.tree
      (earlierMisses t) := by
  have hkey := hready.keeps.key
  have hfull := hready.keeps.fullDigest
  rw [Hierarchy.keptDigest_of_dynamic hdynamic] at hkey
  rw [Hierarchy.keptFullDigest_of_dynamic hdynamic] at hfull
  obtain ⟨before, hunserved⟩ : ∃ before, Unserved cache later t before := by
    cases hleaf : t.template.hasDynamicExtends with
    | true => exact ⟨_, .dynamic hleaf⟩
    | false =>
      have hlacks := (hready.lacks hdynamic hleaf).mono hlater
      obtain ⟨hfixed, hkept⟩ := (Cache.lacksFixed_iff hkeyed htiered).mp hlacks
      exact ⟨_, .static hleaf hfixed hkept⟩
  have haged := hunserved.agedFrom hkeyed
  have hmem := (haged.mono (Nat.le_succ _)).mem_resolved hready.keeps.mem hlives
  have hfound := (Cache.getResolved_eq_some_iff (haged.keyed hkeyed) entry.value.tree).mpr
    ⟨entry, hmem, hkey, hlives, hfull, rfl⟩
  rw [resolveWith_of_unserved hdirectives hunserved hfound]
  refine ⟨rfl, rfl, ?_⟩
  simpa using (Cache.counted_getResolved_found hfound).trans hunserved.counted

/-! ### The resolution that comes first -/

/-- Finishing in the generation in which the resolution began keeps the tree. -/
theorem keeps_finish {name : String} {loaded : List String}
    (hanswer : (resolver.finish cache now cache.generation name context h loaded).outcome =
      .ok answer) :
    ∃ entry, (resolver.finish cache now cache.generation name context h loaded).cache.Keeps name
      context h entry ∧ entry.value.tree = answer := by
  have hagreed : cache.admission cache.generation = .agree := if_pos rfl
  cases htree : h.resolve resolver.maxSuperDepth with
  | error e =>
    rw [finish_of_error htree] at hanswer
    cases hanswer
  | ok tree =>
    rw [finish_of_ok htree, hagreed] at hanswer ⊢
    simp only at hanswer ⊢
    by_cases hoverflow : (cache.storeResolved now name (h.keptDigest context)
        ⟨⟨tree, now⟩, h.keptFullDigest context, h.names⟩ .agree).1 = .clockOverflow
    · rw [if_pos hoverflow] at hanswer
      cases hanswer
    · rw [if_neg hoverflow] at hanswer
      cases hanswer
      obtain ⟨entry, hmem, hkey, hvalue⟩ := Table.mem_of_agreed hoverflow
      refine ⟨entry, ⟨hmem, hkey, ?_, ?_⟩, ?_⟩
      · rw [hvalue]
      · rw [hvalue]
        exact ⟨rfl, _, htree⟩
      · rw [hvalue]

/-- Rebuilding without a disturbance keeps the tree of the hierarchy that is built. -/
theorem keeps_rebuild {t : Template}
    (hanswer : (resolver.rebuild hooks cache now cache.generation t context).outcome = .ok answer)
    (hsame : (resolver.rebuild hooks cache now cache.generation t context).cache.generation =
      cache.generation) :
    ∃ h, (Hierarchy.build resolver.loader resolver.evaluate context t).outcome = .ok h ∧
      ∃ entry, (resolver.rebuild hooks cache now cache.generation t context).cache.Keeps t.name
        context h entry ∧ entry.value.tree = answer := by
  have hquiet : hooks (Hierarchy.build resolver.loader resolver.evaluate context t).loaded = [] := by
    rw [generation_rebuild] at hsame
    exact List.length_eq_zero_iff.mp (by omega)
  cases hbuild : (Hierarchy.build resolver.loader resolver.evaluate context t).outcome with
  | error e =>
    rw [rebuild_of_error hbuild] at hanswer
    cases hanswer
  | ok h =>
    refine ⟨h, rfl, ?_⟩
    cases hdynamic : h.isDynamic with
    | true =>
      rw [rebuild_of_dynamic hbuild hdynamic] at hanswer ⊢
      simp only [hquiet] at hanswer ⊢
      exact keeps_finish hanswer
    | false =>
      rw [rebuild_of_lasting ⟨hbuild, hdynamic, hquiet⟩] at hanswer ⊢
      simp only at hanswer ⊢
      by_cases hoverflow : (cache.storeHierarchy now t.name h .agree).1 = .clockOverflow
      · rw [if_pos hoverflow] at hanswer
        cases hanswer
      · rw [if_neg hoverflow] at hanswer ⊢
        exact keeps_finish hanswer

/-- Rebuilding a hierarchy that the context may change keeps nothing for all contexts. -/
theorem lacksFixed_rebuild {t : Template} {name : String} {stamp begun : Nat}
    (hlacks : cache.LacksFixed name now)
    (hbuild : (Hierarchy.build resolver.loader resolver.evaluate context t).outcome = .ok h)
    (hdynamic : h.isDynamic = true) :
    (resolver.rebuild hooks cache stamp begun t context).cache.LacksFixed name now := by
  have hsame {h' : Hierarchy} (hbuild' : (Hierarchy.build resolver.loader resolver.evaluate context
      t).outcome = .ok h') : h' = h := Except.ok.inj (hbuild'.symm.trans hbuild)
  apply rebuild_preserves (·.LacksFixed name now)
  · exact hlacks.of_keptFrom (cache.keptFrom_maintainAll _)
  · intro before stamp admission h' _ hbuild' hstatic
    rw [hsame hbuild', hdynamic] at hstatic
    cases hstatic
  · intro before stamp admission h' tree hbefore hbuild' _
    refine ⟨fun entry hmem hkey ↦ ?_, hbefore.hierarchy⟩
    rcases Table.mem_store hmem with hold | ⟨-, hnew, -⟩
    · exact hbefore.tree entry hold hkey
    · rw [hkey, hsame hbuild', Hierarchy.keptDigest_of_dynamic hdynamic] at hnew
      exact absurd hnew.symm (resolvedKey_digest_ne_static _ _ context)

/-- Where nothing was found for all contexts, nothing is left to find. -/
theorem Unserved.lacksFixed (hunserved : Unserved cache now t before) (hkeyed : cache.Keyed)
    (htiered : cache.Tiered) (hliteral : t.template.hasDynamicExtends = false) :
    cache.LacksFixed t.name now := by
  cases hunserved with
  | dynamic hdynamic => cases hdynamic.symm.trans hliteral
  | static _ hfixed hkept => exact (Cache.lacksFixed_iff hkeyed htiered).mpr ⟨hfixed, hkept⟩

/-- Only a leaf whose parent is named literally has a hierarchy that no context can change. -/
theorem literal_of_static {t : Template}
    (hbuild : (Hierarchy.build resolver.loader resolver.evaluate context t).outcome = .ok h)
    (hstatic : h.isDynamic = false) : t.hasDynamicExtends = false := by
  have hbuilds : resolver.BuildsLasting .none t context h := ⟨hbuild, hstatic, rfl⟩
  exact hbuilds.static_leaf

/-- Behind an answer stands a hierarchy, and the resolution can be repeated from the cache. -/
def Repeatable (resolver : Resolver) (hooks : Hooks) (cache : Cache) (now : Nat)
    (t : SharedTemplate) (context : Context) (answer : SharedTemplate) : Prop :=
  ∃ h, resolver.Uses cache now t context answer h ∧
    ∃ entry, ReadyFor (resolver.resolveWith hooks cache now t context).cache now t context h entry ∧
      entry.value.tree = answer

/-- A tree for all contexts that was found can be found again. -/
theorem repeatable_of_fixed (htiered : cache.Tiered)
    (hdirectives : t.template.hasDirectives = true)
    (hliteral : t.template.hasDynamicExtends = false)
    (hfound : (cache.getResolved now t.name staticDigest staticDigest).1 = some answer) :
    resolver.Repeatable hooks cache now t context answer := by
  obtain ⟨entry, hmem, hkey, hfull, htree, hhad⟩ := Cache.mem_after_getResolved (.refl cache) hfound
  obtain ⟨-, h, hmade, hstatic⟩ := (htiered.of_hasTree hhad).made_static
  refine ⟨h, .fixed hliteral hfound entry.value hhad htree hmade hstatic, entry, ?_, htree⟩
  rw [resolveWith_of_fixed hdirectives hliteral hfound]
  refine ⟨⟨hmem, ?_, ?_, hmade⟩, fun _ ↦ hliteral, fun hdynamic ↦ ?_⟩
  · rw [hkey, Hierarchy.keptDigest_of_static hstatic]
  · rw [hfull, Hierarchy.keptFullDigest_of_static hstatic]
  · cases hstatic.symm.trans hdynamic

/-- A tree that was made from a hierarchy found in the cache can be found again. -/
theorem repeatable_of_kept (htiered : cache.Tiered)
    (hliteral : t.template.hasDynamicExtends = false)
    (hmissed : (cache.getResolved now t.name staticDigest staticDigest).1 = none)
    (hfound : ((cache.getResolved now t.name staticDigest staticDigest).2.getHierarchy (now + 1)
      t.name).1 = some h)
    (hresult : ∀ hooks, resolver.resolveWith hooks cache now t context =
      resolver.finish ((cache.getResolved now t.name staticDigest staticDigest).2.getHierarchy
        (now + 1) t.name).2 (now + 4) cache.generation t.name context h [])
    (hanswer : (resolver.resolveWith hooks cache now t context).outcome = .ok answer) :
    resolver.Repeatable hooks cache now t context answer := by
  have hgeneration : ((cache.getResolved now t.name staticDigest staticDigest).2.getHierarchy
      (now + 1) t.name).2.generation = cache.generation := by simp
  have hkept := cache.keptFrom_getResolved now t.name staticDigest staticDigest
  obtain ⟨source, hmem, -, rfl⟩ := Cache.mem_of_getHierarchy hfound
  obtain ⟨hstatic, -⟩ := (htiered.of_keptFrom hkept).hierarchies source hmem
  rw [hresult, ← hgeneration] at hanswer
  rw [Repeatable, hresult, ← hgeneration]
  obtain ⟨entry, hkeeps, htree⟩ := keeps_finish hanswer
  refine ⟨source.value, .kept hliteral hmissed hfound, entry, ?_, htree⟩
  refine ⟨hkeeps, fun _ ↦ hliteral, fun hdynamic ↦ ?_⟩
  cases hstatic.symm.trans hdynamic

/-- A tree that was found for the context can be found again. -/
theorem repeatable_of_inContext (hkeyed : cache.Keyed) (htiered : cache.Tiered)
    (hdirectives : t.template.hasDirectives = true) (hunserved : Unserved cache now t before)
    (hfound : (before.getResolved (now + 2) t.name context.digest context.fullDigest).1 =
      some answer) :
    resolver.Repeatable hooks cache now t context answer := by
  have hbefore := (hunserved.agedFrom hkeyed).keptFrom
  have hkept := (before.keptFrom_getResolved (now + 2) t.name context.digest
    context.fullDigest).trans hbefore
  obtain ⟨entry, hmem, hkey, hfull, htree, hhad⟩ := Cache.mem_after_getResolved hbefore hfound
  obtain ⟨h, hmade, hdynamic⟩ := (htiered.of_hasTree hhad).made_dynamic
  refine ⟨h, .inContext before hunserved hfound entry.value hhad htree hmade hdynamic, entry, ?_,
    htree⟩
  rw [resolveWith_of_unserved hdirectives hunserved hfound]
  refine ⟨⟨hmem, ?_, ?_, hmade⟩, fun hstatic ↦ ?_, fun _ hliteral ↦ ?_⟩
  · rw [hkey, Hierarchy.keptDigest_of_dynamic hdynamic]
  · rw [hfull, Hierarchy.keptFullDigest_of_dynamic hdynamic]
  · cases hstatic.symm.trans hdynamic
  · exact (hunserved.lacksFixed hkeyed htiered hliteral).of_keptFrom hkept

/-- A tree that was made anew can be found, where its making was not disturbed. -/
theorem repeatable_of_built (hkeyed : cache.Keyed) (htiered : cache.Tiered)
    (hunserved : Unserved cache now t before)
    (hmissed : (before.getResolved (now + 2) t.name context.digest context.fullDigest).1 = none)
    (hresult : ∀ hooks, resolver.resolveWith hooks cache now t context =
      resolver.rebuild hooks
        (before.getResolved (now + 2) t.name context.digest context.fullDigest).2 (now + 3)
        cache.generation t.template context)
    (hanswer : (resolver.resolveWith hooks cache now t context).outcome = .ok answer)
    (hsame : (resolver.resolveWith hooks cache now t context).cache.generation =
      cache.generation) :
    resolver.Repeatable hooks cache now t context answer := by
  have hafter := hunserved.agedFrom_missed hkeyed hmissed
  have hgeneration := hunserved.generation_missed t.name context.digest context.fullDigest
  rw [hresult, ← hgeneration] at hanswer hsame
  rw [Repeatable, hresult, ← hgeneration]
  obtain ⟨h, hbuild, entry, hkeeps, htree⟩ := keeps_rebuild hanswer hsame
  refine ⟨h, .built before hunserved hmissed hbuild, entry, ?_, htree⟩
  refine ⟨hkeeps, literal_of_static hbuild, fun hdynamic hliteral ↦ ?_⟩
  have hlacks := (hunserved.lacksFixed hkeyed htiered hliteral).of_keptFrom hafter.keptFrom
  exact lacksFixed_rebuild hlacks hbuild hdynamic

/-- A resolution that answers, and is not disturbed, can be repeated. -/
theorem repeatable_of_answered (hkeyed : cache.Keyed) (htiered : cache.Tiered)
    (hdirectives : t.template.hasDirectives = true)
    (hanswer : (resolver.resolveWith hooks cache now t context).outcome = .ok answer)
    (hsame : (resolver.resolveWith hooks cache now t context).cache.generation =
      cache.generation) :
    resolver.Repeatable hooks cache now t context answer := by
  rcases resolver.passage cache now t context with
    ⟨hplain, -⟩ | ⟨hliteral, tree, hfound, hresult⟩ | ⟨hliteral, h, hfound, hresult⟩ |
    ⟨before, hunserved, tree, hfound, hresult⟩ | ⟨before, hunserved, hmissed, hresult⟩
  · cases hplain.symm.trans hdirectives
  · rw [hresult] at hanswer
    cases hanswer
    exact repeatable_of_fixed htiered hdirectives hliteral hfound
  · cases hfixed : (cache.getResolved now t.name staticDigest staticDigest).1 with
    | none => exact repeatable_of_kept htiered hliteral hfixed hfound hresult hanswer
    | some tree =>
      rw [resolveWith_of_fixed hdirectives hliteral hfixed] at hanswer
      cases hanswer
      exact repeatable_of_fixed htiered hdirectives hliteral hfixed
  · rw [hresult] at hanswer
    cases hanswer
    exact repeatable_of_inContext hkeyed htiered hdirectives hunserved hfound
  · exact repeatable_of_built hkeyed htiered hunserved hmissed hresult hanswer hsame

/-- A template with directives that was answered, from any cache that comes out of a run and without
a disturbance, is answered from the resolved trees the next time, while the tree has not expired:
with the same tree, without a load, and for one hit more. If no context can change the hierarchy,
this holds under every context and there is no other lookup. Otherwise it holds under the same
context, and there is a miss in each table for a template whose parent is named literally, and none
for any other. Contexts are the same here if they bind the same names to identical values: zeros of
the two signs are two values, which a comparison of numbers by size would not tell apart, and as
their texts differ a tree that was made for the one is not found for the other. -/
theorem repeats_of_answered (settings : CacheSettings) (start : Nat)
    (accesses : List (Nat × Access)) (resolver : Resolver) (hooks : Hooks) (now : Nat)
    (t : SharedTemplate) (context : Context) (answer : SharedTemplate)
    (hdirectives : t.template.hasDirectives = true)
    (hanswer : (resolver.resolveWith hooks ((Cache.new settings start).run accesses) now t
      context).outcome = .ok answer)
    (hsame : (resolver.resolveWith hooks ((Cache.new settings start).run accesses) now t
      context).cache.generation = ((Cache.new settings start).run accesses).generation) :
    let cache := (Cache.new settings start).run accesses
    let after := (resolver.resolveWith hooks cache now t context).cache
    ∃ h, resolver.Uses cache now t context answer h ∧
      ∃ entry, after.Keeps t.name context h entry ∧ entry.value.tree = answer ∧
        (h.isDynamic = false →
          ∀ (resolver' : Resolver) (hooks' : Hooks) (later : Nat) (context' : Context),
            entry.isExpired later = false →
            (resolver'.resolveWith hooks' after later t context').Repeats after answer 0) ∧
        (h.isDynamic = true →
          ∀ (resolver' : Resolver) (hooks' : Hooks) (later : Nat) (context' : Context),
            now ≤ later → (∀ name, context'.get? name = context.get? name) →
            entry.isExpired (later + 2) = false →
            (resolver'.resolveWith hooks' after later t context').Repeats after answer
              (earlierMisses t)) := by
  have hkeyed := Cache.keyed_run_new settings start accesses
  have htiered : ((Cache.new settings start).run accesses).Tiered :=
    Cache.Tiered.run (Cache.every_new settings start) accesses
  obtain ⟨h, huses, entry, hready, rfl⟩ :=
    repeatable_of_answered hkeyed htiered hdirectives hanswer hsame
  have hkeyed' := hkeyed.resolveWith resolver hooks now t context
  have htiered' := htiered.access now (.resolve resolver hooks t context)
  refine ⟨h, huses, entry, hready.keeps, rfl, ?_, ?_⟩
  · intro hstatic resolver' hooks' later context' hlives
    exact repeats_of_static hkeyed' hdirectives hready hstatic resolver' hooks' context' hlives
  · intro hdynamic resolver' hooks' later context' hlater hsame hlives
    rw [SortedMap.eq_of_get?_eq hsame]
    exact repeats_of_dynamic hkeyed' htiered' hdirectives hready hdynamic resolver' hooks' hlater
      hlives

end Resolver

/-! ### A page whose layout asks for a frame by a variable -/

namespace AliasedPage

def resolver : Resolver := ⟨loader, .standard, 5⟩

/-- A cache for one entry of each kind, which those of another page take up. -/
def crowded : Cache :=
  (Cache.new { maxEntries := 1 } 0).run [(0, .resolve resolver .none ⟨direct, 4⟩ ∅)]

/-- The first resolution of the page over that cache. -/
def resolution : Resolution := resolver.resolveWith .none crowded 9 ⟨page, 1⟩ (framed "frame")

/-- The page takes the place of the other one, and the next time it is found after one miss in each
table. -/
theorem repeats_framed :
    resolution.outcome = .ok ⟨⟨"page", [.named "title" []]⟩, 13⟩ ∧
      resolution.cache.generation = crowded.generation ∧
      (resolver.resolveWith .none resolution.cache 14 ⟨page, 1⟩ (framed "frame")).Repeats
        resolution.cache ⟨⟨"page", [.named "title" []]⟩, 13⟩ 1 := by
  have hanswer : resolution.outcome = .ok ⟨⟨"page", [.named "title" []]⟩, 13⟩ := by decide +kernel
  have hsame : resolution.cache.generation = crowded.generation := by decide +kernel
  have hentries : ∀ entry ∈ resolution.cache.resolved.entries,
      entry.key ≠ resolvedKey "page" staticDigest ∧ entry.isExpired 16 = false := by decide +kernel
  obtain ⟨h, -, entry, hkeeps, -, -, hrepeats⟩ := Resolver.repeats_of_answered { maxEntries := 1 } 0
    [(0, .resolve resolver .none ⟨direct, 4⟩ ∅)] resolver .none 9 ⟨page, 1⟩ (framed "frame") _
    (by decide) hanswer hsame
  obtain ⟨hne, hlives⟩ := hentries entry hkeeps.mem
  have hdynamic : h.isDynamic = true := by
    cases hstatic : h.isDynamic with
    | true => rfl
    | false =>
      have hkey := hkeeps.key
      rw [Hierarchy.keptDigest, hstatic] at hkey
      exact absurd hkey hne
  refine ⟨hanswer, hsame, ?_⟩
  exact hrepeats hdynamic resolver .none 14 (framed "frame") (by decide) (fun _ ↦ rfl) hlives

end AliasedPage

end TemplateInheritance
