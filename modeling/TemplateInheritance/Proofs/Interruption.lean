import TemplateInheritance.Proofs.Passages

/-!
# Resolutions overtaken by an invalidation

While a resolution loads the parents of a template, the cache may be made to forget some of what it
keeps, perhaps the very sources that the resolution is reading. The generation of the cache tells.
A resolution that ends in another generation than it began in has stored nothing and put nothing
out to make room, and it answers as if the cache had been left alone.
-/

namespace TemplateInheritance

namespace Resolver

variable {resolver : Resolver} {hooks : Hooks} {cache : Cache} {now : Nat} {t : SharedTemplate}
  {context : Context}

/-- Only a resolution that builds its hierarchy anew can end in another generation, and only where
the loading for it brings upkeeps. -/
theorem rebuilt_of_interrupted
    (hinterrupted : (resolver.resolveWith hooks cache now t context).cache.generation ≠
      cache.generation) :
    ∃ before, Unserved cache now t before ∧
      (before.getResolved (now + 2) t.name context.digest context.fullDigest).1 = none ∧
      (∀ hooks, resolver.resolveWith hooks cache now t context =
        let after := (before.getResolved (now + 2) t.name context.digest context.fullDigest).2
        resolver.rebuild hooks after (now + 3) after.generation t.template context) ∧
      hooks (Hierarchy.build resolver.loader resolver.evaluate context t.template).loaded ≠ [] := by
  rcases resolver.passage cache now t context with
    ⟨-, hresult⟩ | ⟨-, tree, -, hresult⟩ | ⟨-, h, -, hresult⟩ |
    ⟨before, hunserved, tree, -, hresult⟩ | ⟨before, hunserved, hmissed, hresult⟩
  · simp [hresult] at hinterrupted
  · simp [hresult] at hinterrupted
  · simp [hresult] at hinterrupted
  · simp [hresult, hunserved.generation] at hinterrupted
  · have hafter := hunserved.generation_missed t.name context.digest context.fullDigest
    refine ⟨before, hunserved, hmissed, fun hooks ↦ ?_, fun hquiet ↦ ?_⟩
    · rw [hresult, ← hafter]
    · rw [hresult, generation_rebuild, hquiet, hafter] at hinterrupted
      exact hinterrupted rfl

/-- A resolution that ends in another generation than it began in leaves entries that were there
before, just as they were. Those that are missing had expired or were dropped by an upkeep that came
with the loading; none made room for another. The outcome is that of the resolution whose loading
leaves the cache alone. -/
theorem resolveWith_of_interrupted (hkeyed : cache.Keyed)
    (hhierarchies : (deadline? (now + readings) cache.hierarchies.lifetime).isSome)
    (hresolved : (deadline? (now + readings) cache.resolved.lifetime).isSome)
    (hinterrupted : (resolver.resolveWith hooks cache now t context).cache.generation ≠
      cache.generation) :
    (resolver.resolveWith hooks cache now t context).cache.RestOf cache
        (fun entry ↦ entry.isExpired (now + 2) = true ∨
          ∃ upkeep ∈ hooks (resolver.resolveWith hooks cache now t context).loaded,
            upkeep.dropsHierarchy entry = true)
        (fun entry ↦ entry.isExpired (now + 2) = true ∨
          ∃ upkeep ∈ hooks (resolver.resolveWith hooks cache now t context).loaded,
            upkeep.dropsTree entry = true) ∧
      (resolver.resolveWith hooks cache now t context).outcome =
        (resolver.resolveWith .none cache now t context).outcome := by
  obtain ⟨before, hunserved, hmissed, hresult, hdisturbed⟩ := rebuilt_of_interrupted hinterrupted
  have haged := hunserved.agedFrom_missed hkeyed hmissed
  constructor
  · rw [hresult, loaded_rebuild, cache_rebuild_of_disturbed hdisturbed]
    refine Cache.RestOf.trans ((Cache.restOf_maintainAll _ _).imp ?_ ?_) (haged.imp ?_ ?_)
    · exact fun entry hdrops ↦ .inr hdrops
    · exact fun entry hdrops ↦ .inr hdrops
    · exact fun entry hexpired ↦ .inl hexpired
    · exact fun entry hexpired ↦ .inl hexpired
  · have hclock {reading lifetime : Nat} (hle : reading ≤ now + readings)
        (hlast : (deadline? (now + readings) lifetime).isSome) : (deadline? reading lifetime).isSome :=
      Table.isSome_deadline?_of_le hle hlast
    rw [← haged.hierarchies.lifetime] at hhierarchies
    rw [← haged.resolved.lifetime] at hresolved
    have hreadings : readings = 5 := rfl
    rw [hresult hooks, hresult .none]
    rw [outcome_rebuild (hclock (by omega) hhierarchies) (hclock (by omega) hresolved)]
    rw [outcome_rebuild (hclock (by omega) hhierarchies) (hclock (by omega) hresolved)]

end Resolver

/-! ### A page whose base is invalidated while it is loaded -/

namespace OvertakenPage

def base : Template := ⟨"base", [.named "title" [.text "base"]]⟩

def page : Template := ⟨"page", [.extending "base", .named "title" [.text "page"]]⟩

def other : Template := ⟨"other", [.extending "base", .named "title" [.text "other"]]⟩

/-- Has nothing to do with the base. -/
def alone : Template := ⟨"alone", [.named "body" [.superCall]]⟩

/-- Loading the base invalidates it. -/
def loader : Loader :=
  { Loader.empty with
    stored := [⟨base, 1⟩, ⟨page, 2⟩, ⟨other, 3⟩, ⟨alone, 4⟩]
    invalidating := ["base"] }

def resolver : Resolver := ⟨loader, .standard, 5⟩

/-- Keeps the page and the template that stands alone. -/
def cache : Cache :=
  (Cache.new {} 0).run
    [(0, .resolve resolver .none ⟨page, 2⟩ ∅), (5, .resolve resolver .none ⟨alone, 4⟩ ∅)]

/-- Another page is resolved over the base. -/
def resolution : Resolution := resolver.resolveWith loader.upkeepOf cache 10 ⟨other, 3⟩ ∅

/-- The other page is answered and not kept, the page is dropped, and what has nothing to do with
the base stays. -/
theorem resolution_interrupted :
    resolution.cache.generation ≠ cache.generation ∧
      cache.hierarchies.entries.map (·.key) = ["page", "alone"] ∧
      resolution.cache.hierarchies.entries.map (·.key) = ["alone"] ∧
      resolution.cache.hierarchies.entries.Sublist cache.hierarchies.entries ∧
      (resolver.resolveWith .none cache 10 ⟨other, 3⟩ ∅).outcome =
        .ok ⟨⟨"other", [.named "title" [.text "other"]]⟩, 14⟩ := by
  have hkeyed : cache.Keyed := Cache.keyed_run_new {} 0 _
  have hinterrupted : resolution.cache.generation ≠ cache.generation := by decide +kernel
  obtain ⟨hrest, houtcome⟩ := Resolver.resolveWith_of_interrupted hkeyed (by decide +kernel)
    (by decide +kernel) hinterrupted
  refine ⟨hinterrupted, by decide +kernel, by decide +kernel, hrest.hierarchies.sublist, ?_⟩
  rw [← houtcome]
  decide +kernel

end OvertakenPage

end TemplateInheritance
