import TemplateInheritance.Proofs.Repetition

/-!
# Where the answers of a cache come from

Every tree in a shared cache was stored by some resolution of the run that led there. Its key and
its full digest tell which lookups it answers: those for the same name, and for all contexts if none
can change its hierarchy, else for contexts with the same two digests. No key and no full digest is
of both kinds.
-/

namespace TemplateInheritance

/-- A lookup under the name and the two digests takes the tree that stands under the key. -/
structure ResolvedEntry.Fits (value : ResolvedEntry) (key name digest fullDigest : String) :
    Prop where
  key_eq : key = resolvedKey name digest
  fullDigest_eq : value.fullDigest = fullDigest

namespace Cache

/-- Over the cache that it begins with, a resolution of the template in the context stores the tree
of the hierarchy under the key. The hierarchy is kept there or built. -/
structure Stores (before : Cache) (resolver : Resolver) (t : SharedTemplate) (context : Context)
    (h : Hierarchy) (key : String) (value : ResolvedEntry) : Prop where
  source : t.template.hasDynamicExtends = false ∧ before.HasHierarchy t.name h ∨
    (Hierarchy.build resolver.loader resolver.evaluate context t.template).outcome = .ok h
  fits : value.Fits key t.name (h.keptDigest context) (h.keptFullDigest context)
  chain : value.chain = h.names
  result : h.resolve resolver.maxSuperDepth = .ok value.tree.template

/-- An access adds no tree but the one that a resolution stores. -/
theorem mem_access {cache : Cache} {now : Nat} {access : Access} {entry : Entry ResolvedEntry}
    (hmem : entry ∈ (cache.access now access).resolved.entries) :
    cache.HasTree entry.key entry.value ∨
      ∃ resolver hooks t context h, access = .resolve resolver hooks t context ∧
        cache.Stores resolver t context h entry.key entry.value := by
  cases access with
  | maintain upkeep =>
    exact .inl ((cache.keptFrom_maintain upkeep).addsNothingTo.resolved entry hmem)
  | sweep => exact .inl ((cache.keptFrom_sweepExpired now).addsNothingTo.resolved entry hmem)
  | resolve resolver hooks t context =>
    -- a resolution stores a hierarchy before it resolves it, so that hierarchies are kept or built
    have hafter : (resolver.resolveWith hooks cache now t context).cache.Every
        (fun key h ↦ cache.HasHierarchy key h ∨
          (Hierarchy.build resolver.loader resolver.evaluate context t.template).outcome = .ok h)
        (fun key value ↦ cache.HasTree key value ∨
          ∃ h, cache.Stores resolver t context h key value) := by
      apply Resolver.every_resolveWith
      · exact ⟨fun kept hkept ↦ .inl ⟨kept, hkept, rfl, rfl⟩,
          fun kept hkept ↦ .inl ⟨kept, hkept, rfl, rfl⟩⟩
      · exact fun h hbuild _ ↦ .inr hbuild
      · intro h tree stamp hsource htree
        refine .inr ⟨h, ?_, ⟨rfl, rfl⟩, rfl, htree⟩
        rcases hsource with ⟨hstatic, hkept | hbuild⟩ | hbuild
        · exact .inl ⟨hstatic, hkept⟩
        · exact .inr hbuild
        · exact .inr hbuild
    refine (hafter.resolved entry hmem).imp_right ?_
    rintro ⟨h, hstores⟩
    exact ⟨resolver, hooks, t, context, h, rfl, hstores⟩

/-- Some resolution of the run, over the cache that the accesses before it have left, stores the
tree. -/
def StoresDuring (cache : Cache) (accesses : List (Nat × Access)) (t : SharedTemplate)
    (context : Context) (h : Hierarchy) (key : String) (value : ResolvedEntry) : Prop :=
  ∃ front now resolver hooks back,
    accesses = front ++ (now, .resolve resolver hooks t context) :: back ∧
      (cache.run front).Stores resolver t context h key value

/-- Every tree after a run was there before, or a resolution of the run has stored it. -/
theorem mem_run {cache : Cache} {accesses : List (Nat × Access)} {entry : Entry ResolvedEntry}
    (hmem : entry ∈ (cache.run accesses).resolved.entries) :
    cache.HasTree entry.key entry.value ∨
      ∃ t context h, cache.StoresDuring accesses t context h entry.key entry.value := by
  induction accesses generalizing cache with
  | nil => exact .inl ⟨entry, hmem, rfl, rfl⟩
  | cons first rest ih =>
    obtain ⟨now, access⟩ := first
    -- what was there before the rest is traced back through the first access
    rcases ih hmem with ⟨earlier, hearlier, hkey, hvalue⟩ |
      ⟨t, context, h, front, stamp, resolver, hooks, back, rfl, hstores⟩
    · rw [← hkey, ← hvalue]
      refine (mem_access hearlier).imp_right ?_
      rintro ⟨resolver, hooks, t, context, h, rfl, hstores⟩
      exact ⟨t, context, h, [], now, resolver, hooks, rest, rfl, hstores⟩
    · exact .inr ⟨t, context, h, (now, access) :: front, stamp, resolver, hooks, back, rfl, hstores⟩

section Stores

variable {before : Cache} {resolver : Resolver} {t : SharedTemplate} {context context' : Context}
  {h : Hierarchy} {key name : String} {value : ResolvedEntry}

/-- The lookups for a context take what was stored for the same name and digests, from a hierarchy
that another context may change. -/
theorem Stores.fits_digest_iff (hstores : before.Stores resolver t context h key value) :
    value.Fits key name context'.digest context'.fullDigest ↔
      h.isDynamic = true ∧ t.name = name ∧ context.digest = context'.digest ∧
        context.fullDigest = context'.fullDigest := by
  obtain ⟨hkey, hfull⟩ := hstores.fits
  constructor
  · rintro ⟨hkey', hfull'⟩
    obtain ⟨hname, hdigest⟩ := resolvedKey_inj (h.colon_notMem_keptDigest context)
      context'.colon_notMem_digest (hkey.symm.trans hkey')
    obtain ⟨hdynamic, hdigest⟩ := Hierarchy.keptDigest_eq_digest_iff.mp hdigest
    obtain ⟨-, hfull⟩ := Hierarchy.keptFullDigest_eq_fullDigest_iff.mp (hfull.symm.trans hfull')
    exact ⟨hdynamic, hname, hdigest, hfull⟩
  · rintro ⟨hdynamic, rfl, hdigest, hfull'⟩
    constructor
    · rw [hkey, Hierarchy.keptDigest_of_dynamic hdynamic, hdigest]
    · rw [hfull, Hierarchy.keptFullDigest_of_dynamic hdynamic, hfull']

/-- The lookups for all contexts take what was stored for the same name, from a hierarchy that no
context can change. -/
theorem Stores.fits_static_iff (hstores : before.Stores resolver t context h key value) :
    value.Fits key name staticDigest staticDigest ↔ h.isDynamic = false ∧ t.name = name := by
  obtain ⟨hkey, hfull⟩ := hstores.fits
  constructor
  · rintro ⟨hkey', hfull'⟩
    obtain ⟨hname, -⟩ := resolvedKey_inj (h.colon_notMem_keptDigest context)
      colon_notMem_staticDigest (hkey.symm.trans hkey')
    exact ⟨Hierarchy.keptFullDigest_eq_static_iff.mp (hfull.symm.trans hfull'), hname⟩
  · rintro ⟨hstatic, rfl⟩
    constructor
    · rw [hkey, Hierarchy.keptDigest_of_static hstatic]
    · rw [hfull, Hierarchy.keptFullDigest_of_static hstatic]

end Stores

/-- Of all names and all digests in use, no two pairs share a key. After every run, each tree was
stored by a resolution of the run; the lookups for a context take what was stored for the same name
and digests from a hierarchy that another context may change, the lookups for all contexts what was
stored for the same name from one that no context can change. A lookup answers with what it takes
and has not expired, and with nothing else. -/
theorem answers_apart (settings : CacheSettings) (start : Nat) (accesses : List (Nat × Access)) :
    (KeyDigest staticDigest ∧
      ∀ context : Context, KeyDigest context.digest ∧ context.digest ≠ staticDigest) ∧
    (∀ name name' digest digest', KeyDigest digest → KeyDigest digest' →
      resolvedKey name digest = resolvedKey name' digest' → name = name' ∧ digest = digest') ∧
    (∀ entry ∈ ((new settings start).run accesses).resolved.entries, ∃ t context h,
      (new settings start).StoresDuring accesses t context h entry.key entry.value) ∧
    (∀ (t : SharedTemplate) (context : Context) (h : Hierarchy) (key : String)
        (value : ResolvedEntry),
      (new settings start).StoresDuring accesses t context h key value →
      (∀ (name : String) (context' : Context), value.Fits key name context'.digest context'.fullDigest ↔
        h.isDynamic = true ∧ t.name = name ∧ context.digest = context'.digest ∧
          context.fullDigest = context'.fullDigest) ∧
      ∀ name, value.Fits key name staticDigest staticDigest ↔
        h.isDynamic = false ∧ t.name = name) ∧
    ∀ now name digest fullDigest tree,
      (((new settings start).run accesses).getResolved now name digest fullDigest).1 = some tree ↔
        ∃ entry ∈ ((new settings start).run accesses).resolved.entries,
          entry.isExpired now = false ∧ entry.value.Fits entry.key name digest fullDigest ∧
            entry.value.tree = tree := by
  refine ⟨⟨keyDigest_staticDigest, fun context ↦ ?_⟩, ?_, ?_, ?_, ?_⟩
  · exact ⟨context.keyDigest_digest, context.digest_ne_static⟩
  · intro name name' digest digest' hdigest hdigest' heq
    exact resolvedKey_inj hdigest.colon_notMem hdigest'.colon_notMem heq
  · intro entry hmem
    rcases mem_run hmem with ⟨_, hnew, -⟩ | hstored
    · cases hnew
    · exact hstored
  · rintro t context h key value ⟨front, now, resolver, hooks, back, -, hstores⟩
    exact ⟨fun _ _ ↦ hstores.fits_digest_iff, fun _ ↦ hstores.fits_static_iff⟩
  · intro now name digest fullDigest tree
    rw [getResolved_eq_some_iff (keyed_run_new settings start accesses)]
    constructor
    · rintro ⟨entry, hmem, hkey, hlives, hfull, htree⟩
      exact ⟨entry, hmem, hlives, ⟨hkey, hfull⟩, htree⟩
    · rintro ⟨entry, hmem, hlives, ⟨hkey, hfull⟩, htree⟩
      exact ⟨entry, hmem, hkey, hlives, hfull, htree⟩

end Cache

/-! ### A page named like the key of another -/

namespace KeyedPages

def base : Template := ⟨"base", [.named "title" [.text "base"]]⟩

/-- The context names the layout. -/
def frame : Template := ⟨"frame", [.leaf (.extendsFrom (.var "layout") none)]⟩

/-- Its own parent is named literally, but not that of its parent. -/
def page : Template := ⟨"page", [.extending "frame"]⟩

/-- Named like the key under which a tree of the page for all contexts would stand. -/
def namesake : Template := ⟨"page::static", [.extending "base"]⟩

def resolver : Resolver :=
  ⟨{ Loader.empty with stored := [⟨base, 1⟩, ⟨frame, 2⟩] }, .fixed (.string "base"), 5⟩

/-- The page is resolved, and then its namesake. -/
def accesses : List (Nat × Access) :=
  [(9, .resolve resolver .none ⟨page, 3⟩ ∅), (14, .resolve resolver .none ⟨namesake, 4⟩ ∅)]

def visited : Cache := (Cache.new {} 0).run accesses

/-- What the context finds under the name of the page was stored for the page, from a hierarchy that
another context may change. What all contexts find under the other name was stored for the other,
and no lookup for the context takes it. -/
theorem answers_apart_visited :
    (∃ t context h key value, (Cache.new {} 0).StoresDuring accesses t context h key value ∧
      t.name = "page" ∧ h.isDynamic = true ∧ ¬value.Fits key "page" staticDigest staticDigest) ∧
    ∃ t context h key value, (Cache.new {} 0).StoresDuring accesses t context h key value ∧
      t.name = "page::static" ∧ h.isDynamic = false ∧
      ∀ (name : String) (context' : Context),
        ¬value.Fits key name context'.digest context'.fullDigest := by
  obtain ⟨-, -, hstored, hfits, hanswers⟩ := Cache.answers_apart {} 0 accesses
  have hpage : (visited.getResolved 19 "page" (∅ : Context).digest (∅ : Context).fullDigest).1 =
      some ⟨⟨"page", [.named "title" [.text "base"]]⟩, 13⟩ := by decide +kernel
  have hnamesake : (visited.getResolved 19 "page::static" staticDigest staticDigest).1 =
      some ⟨⟨"page::static", [.named "title" [.text "base"]]⟩, 18⟩ := by decide +kernel
  constructor
  · obtain ⟨entry, hmem, -, hentry, -⟩ := (hanswers _ _ _ _ _).mp hpage
    obtain ⟨t, context, h, hstores⟩ := hstored entry hmem
    have hlookups := hfits t context h _ _ hstores
    obtain ⟨hdynamic, hname, -⟩ := (hlookups.1 _ _).mp hentry
    refine ⟨t, context, h, _, _, hstores, hname, hdynamic, fun hstatic ↦ ?_⟩
    cases hdynamic.symm.trans ((hlookups.2 _).mp hstatic).1
  · obtain ⟨entry, hmem, -, hentry, -⟩ := (hanswers _ _ _ _ _).mp hnamesake
    obtain ⟨t, context, h, hstores⟩ := hstored entry hmem
    have hlookups := hfits t context h _ _ hstores
    obtain ⟨hstatic, hname⟩ := (hlookups.2 _).mp hentry
    refine ⟨t, context, h, _, _, hstores, hname, hstatic, fun name context' hdynamic ↦ ?_⟩
    cases hstatic.symm.trans ((hlookups.1 name context').mp hdynamic).1

end KeyedPages

end TemplateInheritance
