import TemplateInheritance.Cache.Tiers
import TemplateInheritance.Proofs.Tables

/-!
# What is missing from a cache

Where nothing is stored, a cache can only lose entries. A sweep and a lookup that misses take what
has expired; an upkeep takes what it is meant to take. Upkeeps alone move the generation, and a
store that was begun in another generation changes nothing.
-/

namespace TemplateInheritance

/-- Whether an upkeep drops a kept hierarchy. -/
def Upkeep.dropsHierarchy (entry : Entry Hierarchy) : Upkeep → Bool
  | .invalidate name => entry.key == name || entry.value.contains name
  | .clear => true

/-- Whether an upkeep drops a kept tree. -/
def Upkeep.dropsTree (entry : Entry ResolvedEntry) : Upkeep → Bool
  | .invalidate name => entry.value.dependsOn name
  | .clear => true

theorem Table.RestOf.forall_expired_iff {V : Type} {after before : Table V} {earlier now : Nat}
    (hrest : after.RestOf before (·.isExpired earlier = true)) (hle : earlier ≤ now)
    (key : String) :
    (∀ entry ∈ after.entries, entry.key = key → entry.isExpired now = true) ↔
      ∀ entry ∈ before.entries, entry.key = key → entry.isExpired now = true := by
  constructor
  · intro hafter entry hmem hkey
    by_cases hkept : entry ∈ after.entries
    · exact hafter entry hkept hkey
    · exact Entry.isExpired_of_le hle (hrest.missing entry hmem hkept)
  · intro hbefore entry hmem hkey
    exact hbefore entry (hrest.sublist.subset hmem) hkey

namespace Cache

variable {cache : Cache}

/-! ### Distinct keys -/

/-- In each table, no two entries share a key. -/
structure Keyed (cache : Cache) : Prop where
  hierarchies : cache.hierarchies.Keyed
  resolved : cache.resolved.Keyed

theorem keyed_new (settings : CacheSettings) (start : Nat) : (new settings start).Keyed :=
  ⟨Table.keyed_new .., Table.keyed_new ..⟩

theorem Keyed.sweepExpired (hkeyed : cache.Keyed) (now : Nat) : (cache.sweepExpired now).2.Keyed :=
  ⟨hkeyed.hierarchies.of_sublist List.filter_sublist,
    hkeyed.resolved.of_sublist List.filter_sublist⟩

theorem Keyed.sweepIfDue (hkeyed : cache.Keyed) (now : Nat) : (cache.sweepIfDue now).Keyed := by
  unfold Cache.sweepIfDue
  split
  · exact ⟨(hkeyed.sweepExpired now).hierarchies, (hkeyed.sweepExpired now).resolved⟩
  · exact hkeyed

theorem Keyed.getHierarchy (hkeyed : cache.Keyed) (now : Nat) (name : String) :
    (cache.getHierarchy now name).2.Keyed :=
  ⟨(hkeyed.sweepIfDue now).hierarchies.lookup now name fun _ ↦ true,
    (hkeyed.sweepIfDue now).resolved⟩

theorem Keyed.getResolved (hkeyed : cache.Keyed) (now : Nat) (name digest fullDigest : String) :
    (cache.getResolved now name digest fullDigest).2.Keyed :=
  ⟨(hkeyed.sweepIfDue now).hierarchies, (hkeyed.sweepIfDue now).resolved.lookup now
    (resolvedKey name digest) (·.fullDigest == fullDigest)⟩

theorem Keyed.storeHierarchy (hkeyed : cache.Keyed) (now : Nat) (name : String) (h : Hierarchy)
    (admission : Admission) : (cache.storeHierarchy now name h admission).2.Keyed :=
  ⟨hkeyed.hierarchies.store now name h admission, hkeyed.resolved⟩

theorem Keyed.storeResolved (hkeyed : cache.Keyed) (now : Nat) (name digest : String)
    (entry : ResolvedEntry) (admission : Admission) :
    (cache.storeResolved now name digest entry admission).2.Keyed :=
  ⟨hkeyed.hierarchies, hkeyed.resolved.store now _ entry admission⟩

theorem Keyed.maintain (hkeyed : cache.Keyed) (upkeep : Upkeep) :
    (cache.maintain upkeep).Keyed := by
  cases upkeep with
  | invalidate name =>
    exact ⟨hkeyed.hierarchies.of_sublist List.filter_sublist,
      hkeyed.resolved.of_sublist List.filter_sublist⟩
  | clear =>
    exact ⟨hkeyed.hierarchies.of_sublist (List.nil_sublist _),
      hkeyed.resolved.of_sublist (List.nil_sublist _)⟩

theorem Keyed.maintainAll (hkeyed : cache.Keyed) (upkeeps : List Upkeep) :
    (cache.maintainAll upkeeps).Keyed := by
  induction upkeeps generalizing cache with
  | nil => exact hkeyed
  | cons upkeep rest ih => exact ih (hkeyed.maintain upkeep)

/-! ### What is left of a cache -/

/-- Both tables are what is left of those of the other cache. -/
structure RestOf (after before : Cache) (goneHierarchy : Entry Hierarchy → Prop)
    (goneTree : Entry ResolvedEntry → Prop) : Prop where
  hierarchies : after.hierarchies.RestOf before.hierarchies goneHierarchy
  resolved : after.resolved.RestOf before.resolved goneTree

/-- Nothing is missing but what had expired by the reading `now`. -/
abbrev AgedFrom (after before : Cache) (now : Nat) : Prop :=
  after.RestOf before (·.isExpired now = true) (·.isExpired now = true)

variable {goneHierarchy : Entry Hierarchy → Prop} {goneTree : Entry ResolvedEntry → Prop}

theorem RestOf.refl (cache : Cache) : cache.RestOf cache goneHierarchy goneTree :=
  ⟨Table.restOf_of_entries_eq rfl rfl, Table.restOf_of_entries_eq rfl rfl⟩

theorem RestOf.trans {first second third : Cache}
    (hlater : third.RestOf second goneHierarchy goneTree)
    (hearlier : second.RestOf first goneHierarchy goneTree) :
    third.RestOf first goneHierarchy goneTree :=
  ⟨hlater.hierarchies.trans hearlier.hierarchies, hlater.resolved.trans hearlier.resolved⟩

theorem RestOf.imp {goneHierarchy' : Entry Hierarchy → Prop} {goneTree' : Entry ResolvedEntry → Prop}
    {after before : Cache} (hrest : after.RestOf before goneHierarchy goneTree)
    (hhierarchy : ∀ entry, goneHierarchy entry → goneHierarchy' entry)
    (htree : ∀ entry, goneTree entry → goneTree' entry) :
    after.RestOf before goneHierarchy' goneTree' :=
  ⟨hrest.hierarchies.imp hhierarchy, hrest.resolved.imp htree⟩

theorem RestOf.keyed {after before : Cache} (hrest : after.RestOf before goneHierarchy goneTree)
    (hkeyed : before.Keyed) : after.Keyed :=
  ⟨hkeyed.hierarchies.of_sublist hrest.hierarchies.sublist,
    hkeyed.resolved.of_sublist hrest.resolved.sublist⟩

theorem AgedFrom.mono {after before : Cache} {earlier later : Nat}
    (haged : after.AgedFrom before earlier) (hle : earlier ≤ later) :
    after.AgedFrom before later :=
  haged.imp (fun _ ↦ Entry.isExpired_of_le hle) fun _ ↦ Entry.isExpired_of_le hle

theorem agedFrom_sweepExpired (cache : Cache) (now : Nat) :
    (cache.sweepExpired now).2.AgedFrom cache now :=
  ⟨cache.hierarchies.restOf_sweep now, cache.resolved.restOf_sweep now⟩

theorem agedFrom_sweepIfDue (cache : Cache) (now : Nat) :
    (cache.sweepIfDue now).AgedFrom cache now := by
  have hswept := cache.agedFrom_sweepExpired now
  unfold sweepIfDue
  split
  · exact ⟨hswept.hierarchies, hswept.resolved⟩
  · exact .refl cache

/-- A hierarchy that is not found takes nothing but expired entries along. -/
theorem agedFrom_getHierarchy (hkeyed : cache.Keyed) {now : Nat} {name : String}
    (hmissed : (cache.getHierarchy now name).1 = none) :
    (cache.getHierarchy now name).2.AgedFrom cache now := by
  have hmissed' : ((cache.sweepIfDue now).hierarchies.lookup now name fun _ ↦ true).1 = none :=
    hmissed
  have hlookup : (cache.getHierarchy now name).2.AgedFrom (cache.sweepIfDue now) now :=
    ⟨Table.restOf_lookup (hkeyed.sweepIfDue now).hierarchies hmissed',
      Table.restOf_of_entries_eq rfl rfl⟩
  exact hlookup.trans (cache.agedFrom_sweepIfDue now)

/-- A tree that is not found takes nothing but expired entries along. -/
theorem agedFrom_getResolved (hkeyed : cache.Keyed) {now : Nat} {name digest fullDigest : String}
    (hmissed : (cache.getResolved now name digest fullDigest).1 = none) :
    (cache.getResolved now name digest fullDigest).2.AgedFrom cache now := by
  have hmissed' : ((cache.sweepIfDue now).resolved.lookup now (resolvedKey name digest)
      (·.fullDigest == fullDigest)).1 = none := Option.map_eq_none_iff.mp hmissed
  have hlookup : (cache.getResolved now name digest fullDigest).2.AgedFrom
      (cache.sweepIfDue now) now :=
    ⟨Table.restOf_of_entries_eq rfl rfl,
      Table.restOf_lookup (hkeyed.sweepIfDue now).resolved hmissed'⟩
  exact hlookup.trans (cache.agedFrom_sweepIfDue now)

/-- Whatever becomes of a lookup of a tree, it takes no hierarchy but expired ones along. -/
theorem agedFrom_hierarchies_getResolved (cache : Cache) (now : Nat)
    (name digest fullDigest : String) :
    (cache.getResolved now name digest fullDigest).2.hierarchies.RestOf cache.hierarchies
      (·.isExpired now = true) :=
  (cache.agedFrom_sweepIfDue now).hierarchies

/-- No hierarchy is found exactly when none is left to live under the name. -/
theorem getHierarchy_eq_none_iff (hkeyed : cache.Keyed) (now : Nat) (name : String) :
    (cache.getHierarchy now name).1 = none ↔
      ∀ entry ∈ cache.hierarchies.entries, entry.key = name → entry.isExpired now = true := by
  have hswept := (cache.agedFrom_sweepIfDue now).hierarchies.forall_expired_iff
    (Nat.le_refl now) name
  exact ((hkeyed.sweepIfDue now).hierarchies.lookup_eq_none_iff now name).trans hswept

theorem restOf_maintain (cache : Cache) (upkeep : Upkeep) :
    (cache.maintain upkeep).RestOf cache (fun entry ↦ upkeep.dropsHierarchy entry = true)
      fun entry ↦ upkeep.dropsTree entry = true := by
  cases upkeep with
  | invalidate name =>
    exact ⟨cache.hierarchies.restOf_removeWhere fun key h ↦ key == name || h.contains name,
      cache.resolved.restOf_removeWhere fun _ entry ↦ entry.dependsOn name⟩
  | clear =>
    exact ⟨cache.hierarchies.restOf_clear.imp fun _ _ ↦ rfl,
      cache.resolved.restOf_clear.imp fun _ _ ↦ rfl⟩

/-- What upkeeps leave of a cache lacks only what one of them drops. -/
theorem restOf_maintainAll (cache : Cache) (upkeeps : List Upkeep) :
    (cache.maintainAll upkeeps).RestOf cache
      (fun entry ↦ ∃ upkeep ∈ upkeeps, upkeep.dropsHierarchy entry = true)
      fun entry ↦ ∃ upkeep ∈ upkeeps, upkeep.dropsTree entry = true := by
  induction upkeeps generalizing cache with
  | nil => exact .refl cache
  | cons upkeep rest ih =>
    refine RestOf.trans ((ih (cache.maintain upkeep)).imp ?_ ?_)
      ((cache.restOf_maintain upkeep).imp ?_ ?_)
    · rintro entry ⟨other, hmem, hdrops⟩
      exact ⟨other, .tail _ hmem, hdrops⟩
    · rintro entry ⟨other, hmem, hdrops⟩
      exact ⟨other, .tail _ hmem, hdrops⟩
    · intro entry hdrops
      exact ⟨upkeep, List.mem_cons_self, hdrops⟩
    · intro entry hdrops
      exact ⟨upkeep, List.mem_cons_self, hdrops⟩

theorem storeHierarchy_ne_clockOverflow {now : Nat} {name : String} {h : Hierarchy}
    {admission : Admission} (hclock : (deadline? now cache.hierarchies.lifetime).isSome) :
    (cache.storeHierarchy now name h admission).1 ≠ .clockOverflow :=
  Table.store_ne_clockOverflow hclock

/-! ### Generations -/

@[simp] theorem generation_sweepIfDue (cache : Cache) (now : Nat) :
    (cache.sweepIfDue now).generation = cache.generation := by
  unfold sweepIfDue
  split <;> rfl

@[simp] theorem generation_getHierarchy (cache : Cache) (now : Nat) (name : String) :
    (cache.getHierarchy now name).2.generation = cache.generation :=
  cache.generation_sweepIfDue now

@[simp] theorem generation_getResolved (cache : Cache) (now : Nat) (name digest fullDigest : String) :
    (cache.getResolved now name digest fullDigest).2.generation = cache.generation :=
  cache.generation_sweepIfDue now

/-- Every upkeep starts a generation of its own. -/
@[simp] theorem generation_maintainAll (cache : Cache) (upkeeps : List Upkeep) :
    (cache.maintainAll upkeeps).generation = cache.generation + upkeeps.length := by
  induction upkeeps generalizing cache with
  | nil => rfl
  | cons upkeep rest ih =>
    have hfirst : (cache.maintain upkeep).generation = cache.generation + 1 := by
      cases upkeep <;> rfl
    have hrest := ih (cache.maintain upkeep)
    rw [hfirst] at hrest
    rw [List.length_cons, Nat.add_comm rest.length, ← Nat.add_assoc]
    exact hrest

/-- A store is agreed to where no upkeep came in between. -/
theorem admission_maintainAll (cache : Cache) (upkeeps : List Upkeep) :
    (cache.maintainAll upkeeps).admission cache.generation =
      if upkeeps = [] then .agree else .refuse := by
  rw [admission, generation_maintainAll]
  cases upkeeps with
  | nil => simp
  | cons upkeep rest => simp

end Cache

end TemplateInheritance
