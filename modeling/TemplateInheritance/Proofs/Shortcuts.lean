import TemplateInheritance.Fixture
import TemplateInheritance.Proofs.Building
import TemplateInheritance.Proofs.Leaves
import TemplateInheritance.Proofs.MergedTree
import TemplateInheritance.Resolution

/-!
# The shortcuts of a resolution

A template without directives is answered as it is, and a hierarchy without calls is merged and no
more. Both are what the whole way through building, merging and substituting would give.
-/

namespace TemplateInheritance

section Stray

variable {Mark : Type}

mutual

private theorem Node.strayCall?_of_plain {node : Node Mark}
    (hplain : ∀ leaf ∈ Node.leaves node, leaf.isSuperCall = false) :
    Node.strayCall? node = none := by
  cases node with
  | leaf leaf =>
    have hleaf := hplain leaf List.mem_cons_self
    rw [← Leaf.isSome_superCall?, Option.isSome_eq_false_iff, Option.isNone_iff_eq_none] at hleaf
    exact hleaf
  | block mark name body => rfl
  | conditional condition body arms otherwise =>
    simp only [Node.leaves, List.forall_mem_append] at hplain
    rw [Node.strayCall?, Nodes.strayCall?_of_plain hplain.1.1, Arms.strayCall?_of_plain hplain.1.2,
      Nodes.strayCall?_of_plain hplain.2]
    rfl
  | loop targets iterable body otherwise =>
    simp only [Node.leaves, List.forall_mem_append] at hplain
    rw [Node.strayCall?, Nodes.strayCall?_of_plain hplain.1, Nodes.strayCall?_of_plain hplain.2]
    rfl
  | group body => exact Nodes.strayCall?_of_plain hplain
termination_by structural node

/-- A tree without calls has no stray calls. -/
theorem Nodes.strayCall?_of_plain {nodes : Nodes Mark}
    (hplain : ∀ leaf ∈ Nodes.leaves nodes, leaf.isSuperCall = false) :
    Nodes.strayCall? nodes = none := by
  cases nodes with
  | nil => rfl
  | cons node rest =>
    simp only [Nodes.leaves, List.forall_mem_append] at hplain
    rw [Nodes.strayCall?, Node.strayCall?_of_plain hplain.1, Nodes.strayCall?_of_plain hplain.2]
    rfl
termination_by structural nodes

private theorem Arms.strayCall?_of_plain {arms : Arms Mark}
    (hplain : ∀ leaf ∈ Arms.leaves arms, leaf.isSuperCall = false) :
    Arms.strayCall? arms = none := by
  match arms with
  | [] => rfl
  | (_, body) :: rest =>
    simp only [Arms.leaves, List.forall_mem_append] at hplain
    rw [Arms.strayCall?, Nodes.strayCall?_of_plain hplain.1, Arms.strayCall?_of_plain hplain.2]
    rfl
termination_by structural arms

end

end Stray

namespace Hierarchy

/-- Where no template has a call, substituting leaves the merged template as it is. -/
theorem resolveMerged_of_plain {h : Hierarchy}
    (hplain : ∀ t ∈ h.templates, Nodes.hasSuperCall t.nodes = false) (limit : Nat)
    (memo : Memo) : ((h.resolveMerged limit).run memo).1 = .ok h.mergedTemplate := by
  have hleaves : ∀ t ∈ h.templates, ∀ leaf ∈ Nodes.leaves t.nodes, leaf.isSuperCall = false := by
    intro t ht leaf hleaf
    have hnone := hplain t ht
    rw [Nodes.hasSuperCall_eq_any, List.any_eq_false] at hnone
    simpa using hnone leaf hleaf
  have hstray : ∀ t ∈ h.templates, Nodes.strayCall? t.nodes = none :=
    fun t ht ↦ Nodes.strayCall?_of_plain (hleaves t ht)
  rw [resolveMerged_of_noStray hstray, Nodes.fill_of_plain (h.forall_leaves_merged hleaves),
    pure_bind, mergedTemplate_eq]
  rfl

/-- Leaving out a substitution that has nothing to substitute changes no result. -/
theorem resolve_eq_run (h : Hierarchy) (limit : Nat) :
    h.resolve limit = ((h.resolveMerged limit).run []).1 := by
  unfold resolve
  split
  · rfl
  · next hnone =>
    refine (resolveMerged_of_plain (fun t ht ↦ ?_) limit []).symm
    simpa using List.any_eq_false.mp (by simpa using hnone) t ht

/-- A template without a parent is a hierarchy by itself. -/
theorem build_of_declaration?_eq_none {loader : Loader} {evaluate : Evaluator} {context : Context}
    {t : Template} (hnone : t.declaration? = none) :
    (build loader evaluate context t).outcome = .ok ⟨t, []⟩ := by
  rw [build_eq_ok_iff, ascend_eq_ok_iff, t.parentName?_eq_none_iff]
  exact ⟨rfl, hnone⟩

/-- A template by itself is merged already. -/
theorem mergedTemplate_single (t : Template) : (Hierarchy.mk t []).mergedTemplate = t := by
  rw [mergedTemplate_eq, merged_eq_hoist]
  have hhoist (nodes : Nodes Nat) : hoist [] nodes = nodes := by
    cases nodes <;> simp [hoist]
  have himports : (Hierarchy.mk t []).imports = [] := rfl
  rw [himports, Nodes.mark, hhoist, layeredMarked, Nodes.unmarked, Nodes.mark_mark,
    Nodes.mark_unit]

/-- A template without directives is a hierarchy by itself and substituted to itself. -/
theorem build_and_resolve_of_plain {t : Template} (hplain : t.hasDirectives = false)
    (loader : Loader) (evaluate : Evaluator) (context : Context) (limit : Nat) (memo : Memo) :
    (build loader evaluate context t).outcome = .ok ⟨t, []⟩ ∧
      (((Hierarchy.mk t []).resolveMerged limit).run memo).1 = .ok t := by
  simp only [Template.hasDirectives, Bool.or_eq_false_iff, Option.isSome_eq_false_iff,
    Option.isNone_iff_eq_none] at hplain
  refine ⟨build_of_declaration?_eq_none hplain.1, ?_⟩
  rw [resolveMerged_of_plain, mergedTemplate_single]
  intro s hs
  rw [List.mem_singleton.mp hs]
  exact hplain.2

end Hierarchy

namespace Resolver

variable {resolver : Resolver} {context : Context} {t : Template}

/-- A fresh resolution fails where the building fails. -/
theorem resolveFresh_of_error {e : ResolveError}
    (hbuild : (Hierarchy.build resolver.loader resolver.evaluate context t).outcome = .error e) :
    resolver.resolveFresh t context = .error e := by
  rw [resolveFresh, hbuild]

/-- A fresh resolution resolves the hierarchy that it builds. -/
theorem resolveFresh_of_build {h : Hierarchy}
    (hbuild : (Hierarchy.build resolver.loader resolver.evaluate context t).outcome = .ok h) :
    resolver.resolveFresh t context = h.resolve resolver.maxSuperDepth := by
  rw [resolveFresh, hbuild, Hierarchy.resolve_eq_run]

/-- A fresh resolution of a template without directives gives the template back. -/
theorem resolveFresh_of_plain (hplain : t.hasDirectives = false) :
    resolver.resolveFresh t context = .ok t := by
  obtain ⟨hbuild, hresolve⟩ := Hierarchy.build_and_resolve_of_plain hplain resolver.loader
    resolver.evaluate context resolver.maxSuperDepth []
  rw [resolveFresh, hbuild]
  exact hresolve

/-- A template without directives is its own answer, and no cache is touched. -/
theorem resolveWith_of_plain {hooks : Hooks} {cache : Cache} {now : Nat} {t : SharedTemplate}
    (hplain : t.template.hasDirectives = false) :
    resolver.resolveWith hooks cache now t context = ⟨.ok t, cache, []⟩ := by
  rw [resolveWith, hplain]
  rfl

/-- Neither shortcut changes a result or hides an error. A template without directives, answered as
it is, is built, merged and substituted to itself. Where no template of a hierarchy has a call,
substituting the merged template by its origins gives it back, from any memory, so that leaving the
substitution out comes to the same in every hierarchy. -/
theorem shortcuts_eq_pipeline (resolver : Resolver) (hooks : Hooks) (cache : Cache) (now : Nat)
    (context : Context) :
    (∀ t : SharedTemplate, t.template.hasDirectives = false →
      (resolver.resolveWith hooks cache now t context).outcome = .ok t ∧
      ∃ h, (Hierarchy.build resolver.loader resolver.evaluate context t.template).outcome = .ok h ∧
        ((h.resolveMerged resolver.maxSuperDepth).run []).1 = .ok t.template) ∧
    (∀ h : Hierarchy, (∀ t ∈ h.templates, Nodes.hasSuperCall t.nodes = false) → ∀ limit memo,
      ((h.resolveSuper limit h.mergedTemplate.name
        (Nodes.withOrigins h.mergedTemplate.nodes h.mergedOrigins).1).run memo).1 =
          .ok h.mergedTemplate) ∧
    ∀ (h : Hierarchy) limit, h.resolve limit = ((h.resolveMerged limit).run []).1 := by
  refine ⟨fun t hplain ↦ ⟨?_, ⟨t.template, []⟩, ?_⟩, ?_, Hierarchy.resolve_eq_run⟩
  · rw [resolveWith_of_plain hplain]
  · exact Hierarchy.build_and_resolve_of_plain hplain _ _ context _ []
  · intro h hplain limit memo
    exact Hierarchy.resolveMerged_of_plain hplain limit memo

/-- A page that stands alone is answered as it is by a resolver without templates, and a page over
it that overrides its title is merged and no more. -/
theorem shortcuts_eq_pipeline_basePage :
    (Resolver.resolveWith ⟨Loader.empty, .standard, 0⟩ .none (Cache.new {} 0) 1
      ⟨Fixture.basePage, 7⟩ ∅).outcome = .ok ⟨Fixture.basePage, 7⟩ ∧
    (∃ h, (Hierarchy.build Loader.empty .standard ∅ Fixture.basePage).outcome = .ok h ∧
      ((h.resolveMerged 0).run []).1 = .ok Fixture.basePage) ∧
    let h : Hierarchy := ⟨Fixture.childPage, [Fixture.basePage]⟩
    ((h.resolveSuper 0 h.mergedTemplate.name
      (Nodes.withOrigins h.mergedTemplate.nodes h.mergedOrigins).1).run []).1 =
        .ok h.mergedTemplate := by
  have hshort := shortcuts_eq_pipeline ⟨Loader.empty, .standard, 0⟩ .none (Cache.new {} 0) 1 ∅
  have hpage := hshort.1 ⟨Fixture.basePage, 7⟩ (by decide)
  exact ⟨hpage.1, hpage.2, hshort.2.1 ⟨Fixture.childPage, [Fixture.basePage]⟩ (by decide) 0 []⟩

end Resolver

end TemplateInheritance
